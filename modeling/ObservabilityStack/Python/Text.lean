import ObservabilityStack.Lib.Lines
import Mathlib.Algebra.Order.Field.Rat
import Mathlib.Data.Nat.Digits.Defs
import Mathlib.Tactic.Common
import Mathlib.Tactic.IntervalCases

/-!
# The text operations the services use

`str` is Lean's `String`. What the services do with one is little: test a prefix, strip a
trailing slash, read an integer (`int(s)`), and print a string inside another one (`{s!r}`).

Two of those consult the interpreter's Unicode tables: `repr` escapes a non-ASCII character
unless it is printable, and `int` reads any decimal digit of any script. The tables are the
class `Unicode`, so that nothing below depends on a particular version of them; on ASCII text
they are never consulted, which is what makes the closed examples of this development
independent of the instance they are run at.

A definition here stands for an operation of the language, and follows its documentation, not its
source. It is as general as the operation where that costs nothing, and narrower where a service
always calls it in one way: the width and the digits of a format are those of a literal.
-/

set_option autoImplicit false

namespace ObservabilityStack

/-- The interpreter's tables for characters outside ASCII. -/
class Unicode where
  /-- `str.isprintable` of one character. -/
  isPrintable : Char → Bool
  /-- The decimal digit value of a character of category `Nd`. -/
  decimal : Char → Option ℕ

namespace Python

/-- The tables restricted to Latin-1, the characters an HTTP header can carry: everything
    from `¡` on is printable but the soft hyphen, and no digit lies outside ASCII. -/
@[reducible] def latin1 : Unicode where
  isPrintable c := decide (0xA1 ≤ c.toNat) && decide (c.toNat ≤ 0xFF) && decide (c.toNat ≠ 0xAD)
  decimal _ := none

/-- `s.startswith(p)`. -/
def startswith (s p : String) : Bool := p.toList.isPrefixOf s.toList

/-- `s.rstrip(c)` for a single character. -/
def rstrip (s : String) (c : Char) : String :=
  String.ofList (s.toList.reverse.dropWhile (· = c)).reverse

/-! ## `repr` of a string

It is here because messages quote what a client sent. A message that is logged or printed has the
quotes and backslashes of `repr` in it, and those are then escaped once more. -/

/-- `n` in lower-case hexadecimal, zero-padded to `width`. -/
def hex (width n : ℕ) : List Char :=
  let digits := Nat.toDigits 16 n
  List.replicate (width - digits.length) '0' ++ digits

/-- One character inside a `repr` delimited by `quote`. -/
def reprChar [Unicode] (quote c : Char) : List Char :=
  if c = quote ∨ c = '\\' then ['\\', c]
  else if c = '\t' then ['\\', 't']
  else if c = '\n' then ['\\', 'n']
  else if c = '\r' then ['\\', 'r']
  else if c.toNat < 0x20 ∨ c.toNat = 0x7F then ['\\', 'x'] ++ hex 2 c.toNat
  else if c.toNat < 0x7F then [c]
  else if Unicode.isPrintable c then [c]
  else if c.toNat ≤ 0xFF then ['\\', 'x'] ++ hex 2 c.toNat
  else if c.toNat ≤ 0xFFFF then ['\\', 'u'] ++ hex 4 c.toNat
  else ['\\', 'U'] ++ hex 8 c.toNat

/-- `repr(s)`: single quotes, unless the text has one of those and no double quote. -/
def reprStr [Unicode] (s : String) : String :=
  let quote := if s.toList.contains '\'' && !s.toList.contains '"' then '"' else '\''
  String.ofList ([quote] ++ s.toList.flatMap (reprChar quote) ++ [quote])

/-! ## Numbers in hexadecimal can be read back

So different numbers have different texts, which is what an identifier is good for. -/

/-- The value of a lower-case hexadecimal digit. -/
def hexValue (c : Char) : ℕ := if c.isDigit then c.toNat - 48 else c.toNat - 87

def ofHex (cs : List Char) : ℕ := cs.foldl (fun n c => 16 * n + hexValue c) 0

theorem hexValue_digitChar {d : ℕ} (h : d < 16) : hexValue d.digitChar = d := by
  interval_cases d <;> decide

theorem ofHex_toDigits (n : ℕ) : ofHex (Nat.toDigits 16 n) = n := by
  induction n using Nat.strongRecOn with
  | ind n ih =>
    by_cases hn : n < 16
    · rw [Nat.toDigits_of_lt_base hn]
      show 16 * 0 + hexValue n.digitChar = n
      rw [hexValue_digitChar hn, Nat.mul_zero, Nat.zero_add]
    · rw [Nat.toDigits_of_base_le (by decide) (by omega)]
      unfold ofHex
      rw [List.foldl_append]
      show 16 * ofHex (Nat.toDigits 16 (n / 16)) + hexValue (n % 16).digitChar = n
      rw [ih (n / 16) (by omega), hexValue_digitChar (by omega)]
      omega

theorem ofHex_hex (width n : ℕ) : ofHex (hex width n) = n := by
  have hzeros : ∀ k, (List.replicate k '0').foldl (fun n c => 16 * n + hexValue c) 0 = 0 := by
    intro k
    induction k with
    | zero => rfl
    | succ k ih => exact ih
  unfold ofHex hex
  rw [List.foldl_append, hzeros]
  exact ofHex_toDigits n

theorem hex_injective {width n m : ℕ} (h : hex width n = hex width m) : n = m := by
  rw [← ofHex_hex width n, h, ofHex_hex]

/-! ## Different integers print differently -/

theorem natRepr_injective {m n : ℕ} (h : Nat.repr m = Nat.repr n) : m = n := by
  have hdigits : Nat.toDigits 10 m = Nat.toDigits 10 n := String.ofList_injective h
  rw [← Nat.ofDigitChars_toDigits (b := 10) (n := m) (by decide) (by decide), hdigits,
    Nat.ofDigitChars_toDigits (by decide) (by decide)]

theorem natRepr_ne_minus {n : ℕ} {s : String} : Nat.repr n ≠ "-" ++ s := by
  intro h
  have hmem : '-' ∈ (Nat.repr n).toList := by
    rw [h, String.toList_append]
    exact List.mem_append_left _ (by decide)
  have hdigit : '-' ∈ Nat.toDigits 10 n := by rwa [Nat.toList_repr] at hmem
  exact absurd (Nat.isDigit_of_mem_toDigits (by decide) (by decide) hdigit) (by decide)

theorem intToString_injective {m n : ℤ} (h : toString m = toString n) : m = n := by
  cases m with
  | ofNat m =>
    cases n with
    | ofNat n => exact congrArg Int.ofNat (natRepr_injective h)
    | negSucc n => exact absurd h natRepr_ne_minus
  | negSucc m =>
    cases n with
    | ofNat n => exact absurd h.symm natRepr_ne_minus
    | negSucc n =>
      have hminus : "-" ++ Nat.repr (m + 1) = "-" ++ Nat.repr (n + 1) := h
      rw [String.ext_iff, String.toList_append, String.toList_append] at hminus
      have hrepr : Nat.repr (m + 1) = Nat.repr (n + 1) :=
        String.ext (List.append_cancel_left hminus)
      exact congrArg Int.negSucc (Nat.succ_injective (natRepr_injective hrepr))

/-! ## `round(x, 2)` and how the result prints -/

/-- The nearest integer, and the even one of two that are equally near. -/
def roundHalfEven (x : ℚ) : ℤ :=
  let below := x.floor
  let rest := x - below
  if rest < 1 / 2 then below
  else if 1 / 2 < rest then below + 1
  else if below % 2 = 0 then below
  else below + 1

/-- A number of hundredths, printed as a float of at most two decimals is. -/
def hundredths (n : ℤ) : String :=
  let whole := n.natAbs / 100
  let rest := n.natAbs % 100
  let decimals := if rest % 10 = 0 then toString (rest / 10)
    else toString (rest / 10) ++ toString (rest % 10)
  (if n < 0 then "-" else "") ++ toString whole ++ "." ++ decimals

example : hundredths (roundHalfEven (12.345 * 100)) = "12.34" := by decide +kernel

/-- `f"{x:.{digits}f}"`, for a literal number of digits: a negative number that rounds to zero
    keeps its sign. -/
def fixed (digits : ℕ) (x : ℚ) : String :=
  let scaled := (roundHalfEven ((if x < 0 then -x else x) * 10 ^ digits)).natAbs
  let decimals := Nat.toDigits 10 (scaled % 10 ^ digits)
  (if x < 0 then "-" else "") ++ toString (scaled / 10 ^ digits) ++
    if digits = 0 then "" else
      "." ++ String.ofList (List.replicate (digits - decimals.length) '0' ++ decimals)

example : (fixed 1 (1 / 3), fixed 0 (5 / 2), fixed 2 (-1 / 1000)) = ("0.3", "2", "-0.00") := by
  decide +kernel

/-! ## White space, and `int` of a string

`int` accepts more than a decimal number: blanks at either end, underscores between two digits, and
the digits of any script. A length that a client announces goes through it. -/

/-- The white space `int` ignores at either end. -/
def isSpace (c : Char) : Bool :=
  let n := c.toNat
  decide (9 ≤ n ∧ n ≤ 13) || decide (n = 32) || decide (n = 0x85) || decide (n = 0xA0) ||
    decide (n = 0x1680) || decide (0x2000 ≤ n ∧ n ≤ 0x200A) || decide (n = 0x2028) ||
    decide (n = 0x2029) || decide (n = 0x202F) || decide (n = 0x205F) || decide (n = 0x3000)

/-- `c.isspace()`: there are four characters more that `int` does not ignore. -/
def isWhitespace (c : Char) : Bool := isSpace c || decide (0x1C ≤ c.toNat ∧ c.toNat ≤ 0x1F)

/-- `s.split()`. -/
def split (s : String) : List String := (Lines.words isWhitespace s.toList).map String.ofList

/-- `s.split("\n")`. -/
def splitLines (s : String) : List String := (s.toList.splitOn '\n').map String.ofList

/-- `f"{s:<width}"`, for a literal width. -/
def ljust (width : ℕ) (s : String) : String := String.ofList (Lines.pad ' ' width s.toList)

/-- The value of a decimal digit. -/
def digitValue [Unicode] (c : Char) : Option ℕ :=
  if '0'.toNat ≤ c.toNat ∧ c.toNat ≤ '9'.toNat then some (c.toNat - '0'.toNat)
  else if c.toNat < 0x7F then none
  else Unicode.decimal c

/-- A non-empty run of digits with single underscores allowed *between* them. -/
def digitRun [Unicode] : List Char → Option (List ℕ)
  | [] => none
  | [c] => (digitValue c).map fun d => [d]
  | c :: '_' :: cs => do
      let d ← digitValue c
      let ds ← digitRun cs
      return d :: ds
  | c :: cs => do
      let d ← digitValue c
      let ds ← digitRun cs
      return d :: ds

/-- `sys.get_int_max_str_digits()`: longer texts are refused before they are converted. -/
def intMaxStrDigits : ℕ := 4300

/-- The number a run of digits denotes, most significant first. -/
def ofDigits (ds : List ℕ) : ℕ := Nat.ofDigits 10 ds.reverse

/-- `int(s)`; `none` is `ValueError`. -/
def int [Unicode] (s : String) : Option ℤ :=
  let text := ((s.toList.dropWhile isSpace).reverse.dropWhile isSpace).reverse
  let magnitude (cs : List Char) : Option ℕ :=
    (digitRun cs).bind fun ds => if ds.length ≤ intMaxStrDigits then some (ofDigits ds) else none
  match text with
  | '-' :: cs => (magnitude cs).map fun n => -(n : ℤ)
  | '+' :: cs => (magnitude cs).map fun n => (n : ℤ)
  | cs => (magnitude cs).map fun n => (n : ℤ)

example : @int latin1 " +1_000\t" = some 1000 := by decide
example : @int latin1 "12kB" = none := by decide

end Python
end ObservabilityStack
