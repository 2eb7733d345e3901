import ObservabilityStack.Python.JsonDecoder

/-!
# `json.loads` reads what `json.dumps` writes

The scanner of a value takes exactly the text of that value off the front, whatever follows it,
as long as what follows is no continuation of a number: the end of the text, or one of the
three characters that stand behind a value in an array or an object. Every lemma below has this
shape, with the rest of the text as a variable, so that they compose along the tree.

The theorem is not that `loads` inverts `dumps`, which is false: a `dict` is printed as its
entries, so what comes back has lost the pairs that a later one replaced. `normal` is what comes
back. For a value without repeated keys it is the value itself (`normal_obj`, `normal_arr`), and
that is the form in which it is used for the records that the services write.

`Scans` carries the induction. It speaks of every fuel that is at least the length of the text,
since the same text is scanned with more fuel the earlier it stands in a document, and of every
continuation that `Ends`, since a number is over only where something ends it. The first character
is part of it too, because the scanner looks at it before it decides what to read, and a container
looks at it to see whether it is empty.
-/

set_option autoImplicit false

namespace ObservabilityStack
namespace Python
namespace Json

/-! ## Strings

A character is escaped as itself, as two characters, as one `\u` escape or as two of them; the
scanner tells these apart by what stands behind the backslash. `escapeChar_scans` has the four
cases, and the string is the induction over them. -/

theorem hexDigit_digitChar {d : ℕ} (h : d < 16) : hexDigit d.digitChar = some d := by
  interval_cases d <;> decide

/-- Four digits, for a number that has no more. -/
theorem hex_four {n : ℕ} (h : n < 0x10000) :
    hex 4 n = [(n / 0x1000).digitChar, (n / 0x100 % 16).digitChar, (n / 0x10 % 16).digitChar,
      (n % 16).digitChar] := by
  have hzero : Nat.digitChar 0 = '0' := rfl
  unfold hex
  by_cases h1 : n < 0x10
  · rw [Nat.toDigits_of_lt_base h1, show n / 0x1000 = 0 by omega, show n / 0x100 % 16 = 0 by omega,
      show n / 0x10 % 16 = 0 by omega, Nat.mod_eq_of_lt h1]
    rfl
  rw [Nat.toDigits_of_base_le (by decide) (by omega)]
  by_cases h2 : n < 0x100
  · rw [Nat.toDigits_of_lt_base (by omega), show n / 0x1000 = 0 by omega,
      show n / 0x100 % 16 = 0 by omega, show n / 0x10 % 16 = n / 16 by omega]
    rfl
  rw [Nat.toDigits_of_base_le (n := n / 16) (by decide) (by omega), Nat.div_div_eq_div_mul]
  by_cases h3 : n < 0x1000
  · rw [Nat.toDigits_of_lt_base (by omega), show n / 0x1000 = 0 by omega,
      show n / 0x100 % 16 = n / (16 * 16) by omega]
    rfl
  rw [Nat.toDigits_of_base_le (n := n / (16 * 16)) (by decide) (by omega), Nat.div_div_eq_div_mul,
    Nat.toDigits_of_lt_base (by omega)]
  rfl

theorem scanUnit_hex {n : ℕ} (h : n < 0x10000) (rest : List Char) :
    scanUnit (hex 4 n ++ rest) = some (n, rest) := by
  rw [hex_four h]
  have h4 := hexDigit_digitChar (show n / 0x1000 < 16 by omega)
  have h3 := hexDigit_digitChar (show n / 0x100 % 16 < 16 by omega)
  have h2 := hexDigit_digitChar (show n / 0x10 % 16 < 16 by omega)
  have h1 := hexDigit_digitChar (show n % 16 < 16 by omega)
  simp only [scanUnit, List.cons_append, List.nil_append, h4, h3, h2, h1, Option.bind_eq_bind,
    Option.bind_some, Option.pure_def, Option.some.injEq, Prod.mk.injEq, and_true]
  omega

theorem ofNat_toNat_eq {c : Char} {n : ℕ} (h : n = c.toNat) : Char.ofNat n = c := by
  rw [h, Char.ofNat_toNat]

/-- A `\u` escape that is no half of a pair. -/
theorem scanEscape_single {cs rest : List Char} {unit : ℕ} (h : scanUnit cs = some (unit, rest))
    (hhigh : ¬ (0xD800 ≤ unit ∧ unit ≤ 0xDBFF)) (hlow : ¬ (0xDC00 ≤ unit ∧ unit ≤ 0xDFFF)) :
    scanEscape ('u' :: cs) = some (Char.ofNat unit, rest) := by
  simp only [scanEscape, Char.reduceEq, or_self, if_false, if_true, h, Option.bind_eq_bind,
    Option.bind_some, if_neg hhigh, if_neg hlow]
  rfl

/-- A `\u` escape that is the first half of a pair, with the second half behind it. -/
theorem scanEscape_double {cs ds rest : List Char} {unit low : ℕ}
    (h : scanUnit cs = some (unit, '\\' :: 'u' :: ds)) (hlow : scanUnit ds = some (low, rest))
    (hunit : 0xD800 ≤ unit ∧ unit ≤ 0xDBFF) (hsecond : 0xDC00 ≤ low ∧ low ≤ 0xDFFF) :
    scanEscape ('u' :: cs) =
      some (Char.ofNat (0x10000 + (unit - 0xD800) * 0x400 + (low - 0xDC00)), rest) := by
  simp only [scanEscape, Char.reduceEq, or_self, if_false, if_true, h, Option.bind_eq_bind,
    Option.bind_some, if_pos hunit, hlow, if_pos hsecond]
  rfl

/-- A unit that is no half of a pair. -/
theorem scanEscape_unit {c : Char} (h : c.toNat ≤ 0xFFFF) (rest : List Char) :
    scanEscape ('u' :: (hex 4 c.toNat ++ rest)) = some (c, rest) := by
  have hvalid : c.toNat < 0xD800 ∨ 0xDFFF < c.toNat := by
    rcases c.valid with h | h
    · exact Or.inl h
    · exact Or.inr h.1
  have hunit := scanUnit_hex (show c.toNat < 0x10000 by omega) rest
  rw [scanEscape_single hunit (by omega) (by omega), Char.ofNat_toNat]

/-- The two halves of a character beyond the basic plane. -/
theorem scanEscape_pair {c : Char} (h : 0xFFFF < c.toNat) (rest : List Char) :
    scanEscape ('u' :: (hex 4 (0xD800 + (c.toNat - 0x10000) / 0x400) ++
      ('\\' :: 'u' :: (hex 4 (0xDC00 + (c.toNat - 0x10000) % 0x400) ++ rest)))) =
        some (c, rest) := by
  have hmax : c.toNat < 0x110000 := by
    rcases c.valid with h | h
    · exact lt_trans h (by decide)
    · exact h.2
  have hfirst := scanUnit_hex (show 0xD800 + (c.toNat - 0x10000) / 0x400 < 0x10000 by omega)
    ('\\' :: 'u' :: (hex 4 (0xDC00 + (c.toNat - 0x10000) % 0x400) ++ rest))
  have hsecond := scanUnit_hex (show 0xDC00 + (c.toNat - 0x10000) % 0x400 < 0x10000 by omega) rest
  rw [scanEscape_double hfirst hsecond (by omega) (by omega)]
  exact congrArg (fun d => some (d, rest)) (ofNat_toNat_eq (by omega))

theorem escapeUnit_append (a b : ℕ) (rest : List Char) :
    escapeUnit a ++ escapeUnit b ++ rest =
      '\\' :: 'u' :: (hex 4 a ++ ('\\' :: 'u' :: (hex 4 b ++ rest))) := by
  simp [escapeUnit]

/-- What `dumps` writes for a character is this character, or an escape that is scanned as it. -/
theorem escapeChar_scans (ensureAscii : Bool) (c : Char) :
    (escapeChar ensureAscii c = [c] ∧ c ≠ '"' ∧ c ≠ '\\' ∧ 0x20 ≤ c.toNat) ∨
      ∀ rest, ∃ e, escapeChar ensureAscii c ++ rest = '\\' :: e ∧
        scanEscape e = some (c, rest) := by
  unfold escapeChar
  split
  · rename_i h
    refine Or.inr fun rest => ⟨c :: rest, rfl, ?_⟩
    rcases h with rfl | rfl <;> rfl
  -- The named escapes, one branch each, in the order of the encoder.
  rename_i hspecial
  push Not at hspecial
  split
  · rename_i h
    exact Or.inr fun rest => ⟨'n' :: rest, rfl, by rw [h]; rfl⟩
  split
  · rename_i h
    exact Or.inr fun rest => ⟨'r' :: rest, rfl, by rw [h]; rfl⟩
  split
  · rename_i h
    exact Or.inr fun rest => ⟨'t' :: rest, rfl, by rw [h]; rfl⟩
  split
  · rename_i h
    refine Or.inr fun rest => ⟨'f' :: rest, rfl, ?_⟩
    rw [← ofNat_toNat_eq h.symm]
    rfl
  split
  · rename_i h
    refine Or.inr fun rest => ⟨'b' :: rest, rfl, ?_⟩
    rw [← ofNat_toNat_eq h.symm]
    rfl
  split
  · rename_i h
    exact Or.inr fun rest => ⟨_, rfl, scanEscape_unit (by omega) rest⟩
  -- What is left is not a control character: itself, or one or two units in hexadecimal.
  rename_i hcontrol
  split
  · exact Or.inl ⟨rfl, hspecial.1, hspecial.2, not_lt.mp hcontrol⟩
  split
  · rename_i h
    exact Or.inr fun rest => ⟨_, rfl, scanEscape_unit h rest⟩
  · rename_i h
    exact Or.inr fun rest => ⟨_, escapeUnit_append _ _ rest, scanEscape_pair (not_le.mp h) rest⟩

/-- An escaped text is no shorter. -/
theorem length_le_escaped (ensureAscii : Bool) (s : List Char) :
    s.length ≤ (s.flatMap (escapeChar ensureAscii)).length := by
  induction s with
  | nil => exact le_refl _
  | cons c s ih =>
    have hchar : 0 < (escapeChar ensureAscii c).length := by
      rcases escapeChar_scans ensureAscii c with ⟨hself, -⟩ | hescape
      · simp [hself]
      · obtain ⟨e, hesc, -⟩ := hescape []
        rw [List.append_nil] at hesc
        simp [hesc]
    rw [List.flatMap_cons, List.length_append, List.length_cons]
    omega

/-- **A dumped string is scanned back.** -/
theorem scanString_escaped (ensureAscii : Bool) (s rest : List Char) {fuel : ℕ}
    (hfuel : s.length < fuel) :
    scanString fuel (s.flatMap (escapeChar ensureAscii) ++ '"' :: rest) = some (s, rest) := by
  induction s generalizing fuel with
  | nil =>
    obtain ⟨fuel, rfl⟩ := Nat.exists_eq_succ_of_ne_zero (Nat.ne_of_gt hfuel)
    rfl
  | cons c s ih =>
    obtain ⟨fuel, rfl⟩ := Nat.exists_eq_succ_of_ne_zero (Nat.ne_zero_of_lt hfuel)
    have hrest := ih (show s.length < fuel by simpa using hfuel)
    rw [List.flatMap_cons, List.append_assoc]
    rcases escapeChar_scans ensureAscii c with ⟨hself, hquote, hslash, hcontrol⟩ | hescape
    · rw [hself]
      simp only [List.cons_append, List.nil_append, scanString, if_neg hquote, if_neg hslash,
        if_neg (not_lt.mpr hcontrol), hrest, Option.bind_eq_bind, Option.bind_some,
        Option.pure_def]
    · obtain ⟨e, hesc, hscan⟩ := hescape (s.flatMap (escapeChar ensureAscii) ++ '"' :: rest)
      rw [hesc]
      simp only [scanString, Char.reduceEq, if_false, if_true, hscan,
        Option.bind_eq_bind, Option.bind_some, hrest, Option.pure_def]

/-- The same, at the fuel the scanner of values gives it. -/
theorem scanString_dumped (ensureAscii : Bool) (s rest : List Char) :
    scanString ((s.flatMap (escapeChar ensureAscii) ++ '"' :: rest).length + 1)
      (s.flatMap (escapeChar ensureAscii) ++ '"' :: rest) = some (s, rest) := by
  refine scanString_escaped ensureAscii s rest ?_
  have := length_le_escaped ensureAscii s
  rw [List.length_append]
  omega

theorem toList_escape_eq (ensureAscii : Bool) (s : String) : (escape ensureAscii s).toList =
    '"' :: (s.toList.flatMap (escapeChar ensureAscii) ++ ['"']) := by
  simp [escape]

/-! ## Numbers

A text of a number is given by its parts, with the grammar of each as a field, so that an `int` and
the `repr` of a `float` are both texts of numbers and the scanner is run once, on the parts. What
it has to get right is where each part ends: `Breaks` says of the next one that it does not begin
with a digit. -/

/-- What may stand behind a value: nothing, or a character that goes on with an array or an
    object. -/
def Ends (rest : List Char) : Prop := ∀ c ∈ rest.head?, c = ',' ∨ c = ']' ∨ c = '\x7d'

def Digits (ds : List Char) : Prop := ds ≠ [] ∧ ∀ c ∈ ds, c.isDigit = true

/-- The text of a number, in its parts. -/
structure NumberText where
  negative : Bool
  int : List Char
  fraction : List Char
  exponent : List Char
  int_digits : Digits int
  int_zero : int.head? = some '0' → int = ['0']
  fraction_form : fraction = [] ∨ ∃ ds, fraction = '.' :: ds ∧ Digits ds
  exponent_form : exponent = [] ∨ ∃ sign ds, exponent = 'e' :: (sign ++ ds) ∧
    (sign = [] ∨ sign = ['+'] ∨ sign = ['-']) ∧ Digits ds

def NumberText.chars (t : NumberText) : List Char :=
  (if t.negative then ['-'] else []) ++ t.int ++ t.fraction ++ t.exponent

/-- The first character of `rest` is none of a number. -/
def Breaks (rest : List Char) : Prop := ∀ c ∈ rest.head?, c.isDigit = false

theorem Digits.takeWhile {ds rest : List Char} (h : Digits ds) (hrest : Breaks rest) :
    (ds ++ rest).takeWhile Char.isDigit = ds := by
  rw [List.takeWhile_append_of_pos h.2]
  cases rest with
  | nil => simp
  | cons c rest => simp [hrest c rfl]

theorem Digits.dropWhile {ds rest : List Char} (h : Digits ds) (hrest : Breaks rest) :
    (ds ++ rest).dropWhile Char.isDigit = rest := by
  rw [List.dropWhile_append_of_pos h.2]
  cases rest with
  | nil => rfl
  | cons c rest => simp [hrest c rfl]

theorem Ends.breaks {rest : List Char} (h : Ends rest) : Breaks rest := by
  intro c hc
  rcases h c hc with rfl | rfl | rfl <;> rfl

/-- A sign is taken off, and the digits behind it are left. -/
theorem Digits.not_sign {ds : List Char} (h : Digits ds) :
    ∃ d rest, ds = d :: rest ∧ d.isDigit = true := by
  obtain ⟨d, rest, rfl⟩ := List.exists_cons_of_ne_nil h.1
  exact ⟨d, rest, rfl, h.2 d List.mem_cons_self⟩

namespace NumberText

variable (t : NumberText)

theorem scanExponent_chars {rest : List Char} (hrest : Ends rest) :
    scanExponent (t.exponent ++ rest) = (t.exponent, rest) := by
  rcases t.exponent_form with hnone | ⟨sign, ds, hexp, hsign, hds⟩
  · rw [hnone, List.nil_append]
    cases rest with
    | nil => rfl
    | cons c rest => rcases hrest c rfl with rfl | rfl | rfl <;> rfl
  rw [hexp]
  obtain ⟨d, ds, rfl, hd⟩ := hds.not_sign
  have hplus : d ≠ '+' := fun h => absurd hd (by rw [h]; decide)
  have hminus : d ≠ '-' := fun h => absurd hd (by rw [h]; decide)
  have htake := hds.takeWhile hrest.breaks
  have hdrop := hds.dropWhile hrest.breaks
  rw [List.cons_append] at htake hdrop
  rcases hsign with rfl | rfl | rfl <;>
    simp [scanExponent, htake, hdrop, hplus, hminus]

theorem breaks_exponent {rest : List Char} (hrest : Ends rest) : Breaks (t.exponent ++ rest) := by
  rcases t.exponent_form with hnone | ⟨sign, ds, hexp, -, -⟩
  · rw [hnone]
    exact hrest.breaks
  · rw [hexp]
    intro c hc
    obtain rfl := Option.some.inj hc
    rfl

theorem scanFraction_chars {rest : List Char} (hrest : Ends rest) :
    scanFraction (t.fraction ++ (t.exponent ++ rest)) = (t.fraction, t.exponent ++ rest) := by
  rcases t.fraction_form with hnone | ⟨ds, hfraction, hds⟩
  · rw [hnone, List.nil_append]
    rcases t.exponent_form with hnone | ⟨sign, ds, hexp, -, -⟩
    · rw [hnone, List.nil_append]
      cases rest with
      | nil => rfl
      | cons c rest => rcases hrest c rfl with rfl | rfl | rfl <;> rfl
    · rw [hexp]
      rfl
  · have htake := hds.takeWhile (t.breaks_exponent hrest)
    have hdrop := hds.dropWhile (t.breaks_exponent hrest)
    rw [hfraction]
    simp only [List.cons_append, scanFraction, htake, hdrop, if_neg hds.1]

theorem breaks_fraction {rest : List Char} (hrest : Ends rest) :
    Breaks (t.fraction ++ (t.exponent ++ rest)) := by
  rcases t.fraction_form with hnone | ⟨ds, hfraction, -⟩
  · rw [hnone]
    exact t.breaks_exponent hrest
  · rw [hfraction]
    intro c hc
    obtain rfl := Option.some.inj hc
    rfl

/-- The digits before the point are found, a leading zero or not. -/
theorem scanned_int {rest : List Char} (hrest : Ends rest) :
    (if (t.int ++ (t.fraction ++ (t.exponent ++ rest))).head? = some '0' then ['0']
      else (t.int ++ (t.fraction ++ (t.exponent ++ rest))).takeWhile Char.isDigit) = t.int := by
  rw [List.head?_append_of_ne_nil _ t.int_digits.1]
  split
  · rename_i hzero
    exact (t.int_zero hzero).symm
  · exact t.int_digits.takeWhile (t.breaks_fraction hrest)

/-- **A number is scanned in full.** -/
theorem scanNumber_chars (reprFloat : String → String) {rest : List Char} (hrest : Ends rest) :
    scanNumber reprFloat (t.chars ++ rest) =
      if t.fraction = [] ∧ t.exponent = [] then
        if t.int.length ≤ intMaxStrDigits then
          some (.int (signed t.negative (decimal t.int)), rest)
        else none
      else some (.float (reprFloat (String.ofList t.chars)), rest) := by
  have hnegative : ((t.chars ++ rest).head? = some '-') ↔ t.negative = true := by
    obtain ⟨d, ds, hint, hd⟩ := t.int_digits.not_sign
    have hminus : d ≠ '-' := fun h => absurd hd (by rw [h]; decide)
    cases hneg : t.negative <;> simp [chars, hneg, hint, hminus]
  have hbody : (if t.negative = true then (t.chars ++ rest).drop 1 else t.chars ++ rest) =
      t.int ++ (t.fraction ++ (t.exponent ++ rest)) := by
    cases hneg : t.negative <;> simp [chars, hneg]
  unfold scanNumber
  simp only [hnegative, hbody, t.scanned_int hrest, if_neg t.int_digits.1, List.drop_left,
    Bool.decide_eq_true,
    t.scanFraction_chars hrest, t.scanExponent_chars hrest]
  rfl

end NumberText

/-- Only the digits of zero begin with a zero. -/
theorem toDigits_zero_head {n : ℕ} (h : (Nat.toDigits 10 n).head? = some '0') :
    Nat.toDigits 10 n = ['0'] := by
  induction n using Nat.strong_induction_on with
  | _ n ih =>
    by_cases hn : n < 10
    · rw [Nat.toDigits_of_lt_base hn] at h ⊢
      exact congrArg (fun c => [c]) (Option.some.inj h)
    have hsplit := Nat.toDigits_of_base_le (b := 10) (n := n) (by decide) (by omega)
    rw [hsplit, List.head?_append_of_ne_nil _ Nat.toDigits_ne_nil] at h
    have hzero := ih (n / 10) (by omega) h
    have hvalue : Nat.ofDigitChars 10 (Nat.toDigits 10 (n / 10)) 0 = n / 10 :=
      Nat.ofDigitChars_toDigits (by decide) (by decide)
    rw [hzero] at hvalue
    have : n / 10 = 0 := hvalue.symm
    omega

/-- The text of an `int`. -/
def NumberText.ofInt (n : ℤ) : NumberText where
  negative := decide (n < 0)
  int := Nat.toDigits 10 n.natAbs
  fraction := []
  exponent := []
  int_digits := ⟨Nat.toDigits_ne_nil, fun _ h => Nat.isDigit_of_mem_toDigits (by decide)
    (by decide) h⟩
  int_zero := toDigits_zero_head
  fraction_form := Or.inl rfl
  exponent_form := Or.inl rfl

theorem NumberText.chars_ofInt (n : ℤ) : (ofInt n).chars = (toString n).toList := by
  cases n with
  | ofNat n =>
    show _ = (Nat.repr n).toList
    simp [chars, ofInt, Nat.toList_repr]
  | negSucc n =>
    show _ = ("-" ++ Nat.repr (n + 1)).toList
    simp [chars, ofInt, Nat.toList_repr, String.toList_append]

theorem signed_ofInt (n : ℤ) :
    signed (NumberText.ofInt n).negative (decimal (NumberText.ofInt n).int) = n := by
  have hvalue : decimal (NumberText.ofInt n).int = n.natAbs :=
    Nat.ofDigitChars_toDigits (by decide) (by decide)
  rw [hvalue]
  simp only [signed, NumberText.ofInt, decide_eq_true_eq]
  split <;> omega

/-! ## Values

A lemma for each form of a value, which says that its text `Scans` if those of its parts do. -/

section Scan

variable {reprFloat : String → String}

/-- The text is one of this value: whatever may stand behind it, the scanner takes the text and
    returns the value. -/
structure Scans (reprFloat : String → String) (text : List Char) (value : Json) : Prop where
  /-- It begins where the scanner begins to read, and not with the end of an array. -/
  starts : ∃ c cs, text = c :: cs ∧ isBlank c = false ∧ c ≠ ']'
  scan : ∀ (fuel : ℕ) (rest : List Char), text.length ≤ fuel → Ends rest →
    scan reprFloat fuel (text ++ rest) = some (value, rest)

namespace Scans

variable {text : List Char} {value : Json}

theorem skip (h : Scans reprFloat text value) (rest : List Char) :
    Json.skip (text ++ rest) = text ++ rest := by
  obtain ⟨c, cs, rfl, hblank, -⟩ := h.starts
  rw [Json.skip, List.cons_append, List.dropWhile_cons_of_neg (by simp [hblank])]

/-- A text that is left to the scanner of atoms. -/
theorem of_atom (c : Char) (cs : List Char) (hblank : isBlank c = false)
    (hc : c ≠ '"' ∧ c ≠ '[' ∧ c ≠ ']' ∧ c ≠ '\x7b')
    (h : ∀ {rest : List Char}, Ends rest →
      scanAtom reprFloat (c :: cs ++ rest) = some (value, rest)) :
    Scans reprFloat (c :: cs) value := by
  refine ⟨⟨c, cs, rfl, hblank, hc.2.2.1⟩, fun fuel rest hfuel hrest => ?_⟩
  cases fuel with
  | zero => simp at hfuel
  | succ fuel =>
    rw [List.cons_append, Json.scan, if_neg hc.1, if_neg hc.2.1, if_neg hc.2.2.2,
      ← List.cons_append, h hrest]

theorem null : Scans reprFloat "null".toList .null :=
  of_atom _ _ rfl (by decide) fun _ => rfl

theorem bool (b : Bool) : Scans reprFloat (if b then "true" else "false").toList (.bool b) := by
  cases b
  · exact of_atom _ "alse".toList rfl (by decide) fun _ => rfl
  · exact of_atom _ "rue".toList rfl (by decide) fun _ => rfl

theorem str (ensureAscii : Bool) (s : String) :
    Scans reprFloat (escape ensureAscii s).toList (.str s) := by
  refine ⟨⟨_, _, toList_escape_eq ensureAscii s, rfl, by decide⟩, fun fuel rest hfuel hrest => ?_⟩
  rw [toList_escape_eq] at hfuel ⊢
  cases fuel with
  | zero => simp at hfuel
  | succ fuel =>
    rw [List.cons_append, List.append_assoc, Json.scan, if_pos rfl]
    simp only [List.cons_append, List.nil_append, scanString_dumped, Option.map_some,
      String.ofList_toList]

theorem number (t : NumberText)
    (h : t.fraction = [] ∧ t.exponent = [] → t.int.length ≤ intMaxStrDigits) :
    Scans reprFloat t.chars (if t.fraction = [] ∧ t.exponent = [] then
      .int (signed t.negative (decimal t.int))
    else .float (reprFloat (String.ofList t.chars))) := by
  have hscan : ∀ {rest : List Char}, Ends rest → scanNumber reprFloat (t.chars ++ rest) =
      some (if t.fraction = [] ∧ t.exponent = [] then .int (signed t.negative (decimal t.int))
        else .float (reprFloat (String.ofList t.chars)), rest) := by
    intro rest hrest
    rw [t.scanNumber_chars reprFloat hrest]
    by_cases hint : t.fraction = [] ∧ t.exponent = []
    · rw [if_pos hint, if_pos hint, if_pos (h hint)]
    · rw [if_neg hint, if_neg hint]
  obtain ⟨d, ds, hds, hd⟩ := t.int_digits.not_sign
  -- The scanner branches on the first character: a minus sign, or a digit of the whole part.
  have hchars : t.chars = (if t.negative then ['-'] else []) ++
      d :: (ds ++ t.fraction ++ t.exponent) := by
    rw [NumberText.chars, hds]
    simp
  cases hneg : t.negative with
  | true =>
    rw [hneg] at hchars
    rw [hneg] at hscan
    rw [hchars] at hscan ⊢
    refine of_atom _ _ rfl (by decide) fun {rest} hrest => ?_
    rw [← hscan hrest]
    -- After a minus sign only `-Infinity` is read otherwise, and a digit is not an I.
    have hI : d ≠ 'I' := fun heq => absurd hd (by rw [heq]; decide)
    simp [scanAtom, hI]
  | false =>
    rw [hneg] at hchars hscan
    rw [hchars] at hscan ⊢
    have hne : ∀ c : Char, c.isDigit = false → d ≠ c := fun c hc heq => by simp [heq, hc] at hd
    refine of_atom _ _ ?_ ⟨hne _ rfl, hne _ rfl, hne _ rfl, hne _ rfl⟩ fun {rest} hrest => ?_
    · simp [isBlank, hne ' ' rfl, hne '\t' rfl, hne '\n' rfl, hne '\r' rfl]
    · rw [← hscan hrest]
      simp only [Bool.false_eq_true, if_false, List.nil_append]
      unfold scanAtom
      split <;> simp_all

theorem int {n : ℤ} (h : (Nat.toDigits 10 n.natAbs).length ≤ intMaxStrDigits) :
    Scans reprFloat (toString n).toList (.int n) := by
  have hnumber : Scans reprFloat _ _ := number (NumberText.ofInt n) fun _ => h
  rwa [NumberText.chars_ofInt, if_pos ⟨rfl, rfl⟩, signed_ofInt] at hnumber

/-! ### Containers -/

/-- Texts with a comma between each two of them. -/
def joined (texts : List (List Char)) : List Char := List.intercalate [',', ' '] texts

theorem joined_cons_cons (t t' : List Char) (ts : List (List Char)) :
    joined (t :: t' :: ts) = t ++ ',' :: ' ' :: joined (t' :: ts) := by
  simp [joined, List.intercalate_cons_cons]

theorem skip_cons {c : Char} (h : isBlank c = false) (rest : List Char) :
    Json.skip (c :: rest) = c :: rest := by
  rw [Json.skip, List.dropWhile_cons_of_neg (by simp [h])]

theorem exists_joined (t : List Char) (ts : List (List Char)) :
    ∃ tail, joined (t :: ts) = t ++ tail := by
  cases ts with
  | nil => exact ⟨[], by simp [joined]⟩
  | cons t' ts => exact ⟨_, joined_cons_cons t t' ts⟩

theorem skip_joined (h : Scans reprFloat text value) (ts : List (List Char)) (rest : List Char) :
    Json.skip (joined (text :: ts) ++ rest) = joined (text :: ts) ++ rest := by
  obtain ⟨tail, htail⟩ := exists_joined text ts
  rw [htail, List.append_assoc, h.skip]

theorem skip_space (rest : List Char) : Json.skip (' ' :: rest) = Json.skip rest := by
  rw [Json.skip, List.dropWhile_cons_of_pos (by decide), Json.skip]

theorem ends_cons {c : Char} (h : c = ',' ∨ c = ']' ∨ c = '\x7d') (rest : List Char) :
    Ends (c :: rest) := by
  intro d hd
  obtain rfl := Option.some.inj hd
  exact h

/-- The items of an array that has some, and the bracket behind them. -/
theorem items (item : List Char × Json) {more : List (List Char × Json)}
    (h : ∀ i ∈ item :: more, Scans reprFloat i.1 i.2) (fuel : ℕ) (rest : List Char)
    (hfuel : (joined ((item :: more).map Prod.fst)).length < fuel) :
    scanItems reprFloat fuel (joined ((item :: more).map Prod.fst) ++ ']' :: rest) =
      some ((item :: more).map Prod.snd, rest) := by
  induction more generalizing item fuel with
  | nil =>
    obtain ⟨fuel, rfl⟩ := Nat.exists_eq_succ_of_ne_zero (Nat.ne_zero_of_lt hfuel)
    have hitem := (h item List.mem_cons_self).scan fuel (']' :: rest)
      (Nat.lt_succ_iff.mp (by simpa [joined] using hfuel)) (ends_cons (by decide) _)
    have hjoined : joined ([item].map Prod.fst) = item.1 := by simp [joined]
    rw [hjoined, scanItems]
    simp only [hitem, Option.bind_eq_bind, Option.bind_some, skip_cons (show isBlank ']' = false
      from rfl)]
    rfl
  | cons next more ih =>
    obtain ⟨fuel, rfl⟩ := Nat.exists_eq_succ_of_ne_zero (Nat.ne_zero_of_lt hfuel)
    -- One item, the separator, and the items the induction hypothesis reads.
    have hjoined : joined ((item :: next :: more).map Prod.fst) =
        item.1 ++ ',' :: ' ' :: joined ((next :: more).map Prod.fst) := joined_cons_cons _ _ _
    rw [hjoined] at hfuel ⊢
    rw [List.length_append, List.length_cons, List.length_cons] at hfuel
    have hitem := (h item List.mem_cons_self).scan fuel
      (',' :: ' ' :: (joined ((next :: more).map Prod.fst) ++ ']' :: rest))
      (by omega) (ends_cons (by decide) _)
    have hmore := ih next (fun i hi => h i (List.mem_cons_of_mem _ hi)) fuel (by omega)
    have hskip := (h next (by simp)).skip_joined (more.map Prod.fst) (']' :: rest)
    rw [← List.map_cons] at hskip
    rw [List.append_assoc, scanItems]
    simp only [List.cons_append, hitem, Option.bind_eq_bind, Option.bind_some,
      skip_cons (show isBlank ',' = false from rfl), skip_space, hskip, hmore]
    rfl

theorem arr {items : List (List Char × Json)} (h : ∀ i ∈ items, Scans reprFloat i.1 i.2) :
    Scans reprFloat ('[' :: (joined (items.map Prod.fst) ++ [']']))
      (.arr (items.map Prod.snd)) := by
  refine ⟨⟨_, _, rfl, rfl, by decide⟩, fun fuel rest hfuel hrest => ?_⟩
  cases fuel with
  | zero => simp at hfuel
  | succ fuel =>
    rw [List.cons_append, Json.scan, if_neg (by decide), if_pos rfl, List.append_assoc]
    cases items with
    | nil => rfl
    | cons item more =>
      have hitem := h item List.mem_cons_self
      obtain ⟨c, cs, hc, hblank, hbracket⟩ := hitem.starts
      have hitems := Scans.items item h fuel rest (by simp at hfuel ⊢; omega)
      have hskip := hitem.skip_joined (more.map Prod.fst) (']' :: rest)
      -- An array that has items does not begin with the bracket that would end it.
      obtain ⟨tail, htail⟩ := exists_joined item.1 (more.map Prod.fst)
      rw [htail, hc] at hskip
      rw [List.map_cons, htail, hc] at hitems ⊢
      simp only [List.cons_append, List.nil_append] at hitems hskip ⊢
      rw [hskip]
      split
      · rename_i heq
        exact absurd (List.cons.inj heq).1 hbracket
      · rw [hitems, Option.map_some]

/-- A member of an object: its key, and its value with a text. -/
def memberText (ensureAscii : Bool) (m : String × List Char × Json) : List Char :=
  (escape ensureAscii m.1).toList ++ ':' :: ' ' :: m.2.1

/-- The key of a member and the colon behind it are taken off. -/
theorem scanMembers_key (ensureAscii : Bool) (m : String × List Char × Json) (fuel : ℕ)
    (rest : List Char) :
    scanMembers reprFloat (fuel + 1) (memberText ensureAscii m ++ rest) =
      (Json.scan reprFloat fuel (Json.skip (m.2.1 ++ rest))).bind fun r =>
        match Json.skip r.2 with
        | '\x7d' :: rest => some ([(m.1, r.1)], rest)
        | ',' :: rest => (scanMembers reprFloat fuel (Json.skip rest)).bind fun r' =>
            some ((m.1, r.1) :: r'.1, r'.2)
        | _ => none := by
  rw [memberText, toList_escape_eq, List.cons_append, List.cons_append, scanMembers, if_pos rfl]
  simp only [List.append_assoc, List.cons_append, List.nil_append, scanString_dumped,
    Option.bind_eq_bind, Option.bind_some, skip_cons (show isBlank ':' = false from rfl),
    skip_space, String.ofList_toList]
  rfl

/-- The members of an object that has some, and the brace behind them. -/
theorem members (ensureAscii : Bool) (m : String × List Char × Json)
    {more : List (String × List Char × Json)}
    (h : ∀ m' ∈ m :: more, Scans reprFloat m'.2.1 m'.2.2) (fuel : ℕ) (rest : List Char)
    (hfuel : (joined ((m :: more).map (memberText ensureAscii))).length < fuel) :
    scanMembers reprFloat fuel
        (joined ((m :: more).map (memberText ensureAscii)) ++ '\x7d' :: rest) =
      some ((m :: more).map fun m' => (m'.1, m'.2.2), rest) := by
  have hlength : ∀ m : String × List Char × Json,
      m.2.1.length < (memberText ensureAscii m).length := by
    intro m
    simp [memberText]
    omega
  induction more generalizing m fuel with
  | nil =>
    obtain ⟨fuel, rfl⟩ := Nat.exists_eq_succ_of_ne_zero (Nat.ne_zero_of_lt hfuel)
    have hjoined : joined ([m].map (memberText ensureAscii)) = memberText ensureAscii m := by
      simp [joined]
    rw [hjoined] at hfuel ⊢
    have hvalue := h m List.mem_cons_self
    have hscan := hvalue.scan fuel ('\x7d' :: rest)
      (by have := hlength m; omega) (ends_cons (by decide) _)
    rw [scanMembers_key, hvalue.skip, hscan, Option.bind_some]
    simp only [skip_cons (show isBlank '\x7d' = false from rfl)]
    rfl
  | cons next more ih =>
    obtain ⟨fuel, rfl⟩ := Nat.exists_eq_succ_of_ne_zero (Nat.ne_zero_of_lt hfuel)
    -- As for `items`, with a key and a colon before each value.
    have hjoined : joined ((m :: next :: more).map (memberText ensureAscii)) =
        memberText ensureAscii m ++ ',' :: ' ' ::
          joined ((next :: more).map (memberText ensureAscii)) := joined_cons_cons _ _ _
    rw [hjoined] at hfuel ⊢
    rw [List.length_append, List.length_cons, List.length_cons] at hfuel
    have hvalue := h m List.mem_cons_self
    have hscan := hvalue.scan fuel
      (',' :: ' ' :: (joined ((next :: more).map (memberText ensureAscii)) ++
        '\x7d' :: rest))
      (by have := hlength m; omega) (ends_cons (by decide) _)
    have hmore := ih next (fun m' hm' => h m' (List.mem_cons_of_mem _ hm')) fuel (by omega)
    have hskip : ∀ rest, Json.skip (joined ((next :: more).map (memberText ensureAscii)) ++ rest) =
        joined ((next :: more).map (memberText ensureAscii)) ++ rest := by
      intro rest
      obtain ⟨tail, htail⟩ := exists_joined (memberText ensureAscii next)
        (more.map (memberText ensureAscii))
      rw [List.map_cons, htail, memberText, toList_escape_eq]
      exact skip_cons rfl _
    rw [List.append_assoc, List.cons_append, List.cons_append, scanMembers_key, hvalue.skip, hscan,
      Option.bind_some]
    simp only [skip_cons (show isBlank ',' = false from rfl), skip_space, hskip, hmore,
      Option.bind_some]
    rfl

theorem obj (ensureAscii : Bool) {ms : List (String × List Char × Json)}
    (h : ∀ m ∈ ms, Scans reprFloat m.2.1 m.2.2) :
    Scans reprFloat ('\x7b' :: (joined (ms.map (memberText ensureAscii)) ++ ['\x7d']))
      (.obj (ms.map fun m => (m.1, m.2.2))) := by
  refine ⟨⟨_, _, rfl, rfl, by decide⟩, fun fuel rest hfuel hrest => ?_⟩
  cases fuel with
  | zero => simp at hfuel
  | succ fuel =>
    rw [List.cons_append, Json.scan, if_neg (by decide), if_neg (by decide), if_pos rfl,
      List.append_assoc]
    cases ms with
    | nil => rfl
    | cons m more =>
      have hmembers := Scans.members ensureAscii m h fuel rest
        (by simp at hfuel ⊢; omega)
      obtain ⟨tail, htail⟩ := exists_joined (memberText ensureAscii m)
        (more.map (memberText ensureAscii))
      rw [List.map_cons, htail, memberText, toList_escape_eq] at hmembers ⊢
      simp only [List.cons_append, List.nil_append] at hmembers ⊢
      rw [skip_cons (show isBlank '"' = false from rfl)]
      exact congrArg (Option.map fun r => (Json.obj r.1, r.2)) hmembers

end Scans

/-! ## Dumped values

The texts that `dumps` writes are those of the lemmas above, with the pairs of a `dict` replaced by
its entries. So the induction on the value only has to say which lemma applies. -/

/-- The text of a finite `float`, which `repr` gives back. -/
def IsFloat (reprFloat : String → String) (text : String) : Prop :=
  ∃ t : NumberText, t.chars = text.toList ∧ ¬ (t.fraction = [] ∧ t.exponent = []) ∧
    reprFloat text = text

/-- The numbers of the value can be read: an `int` is not longer than `int` accepts, and a
    `float` is the text of one. -/
inductive Readable (reprFloat : String → String) : Json → Prop
  | null : Readable reprFloat .null
  | bool (b : Bool) : Readable reprFloat (.bool b)
  | int {n : ℤ} (h : (Nat.toDigits 10 n.natAbs).length ≤ intMaxStrDigits) :
      Readable reprFloat (.int n)
  | float {text : String} (h : IsFloat reprFloat text ∨ text = "nan" ∨ text = "inf" ∨
      text = "-inf") : Readable reprFloat (.float text)
  | str (s : String) : Readable reprFloat (.str s)
  | arr {items : List Json} (h : ∀ v ∈ items, Readable reprFloat v) :
      Readable reprFloat (.arr items)
  | obj {pairs : List (String × Json)} (h : ∀ p ∈ pairs, Readable reprFloat p.2) :
      Readable reprFloat (.obj pairs)

theorem dumpsFloat_of_isFloat {text : String} (h : IsFloat reprFloat text) :
    dumpsFloat text = text := by
  obtain ⟨t, hchars, -, -⟩ := h
  obtain ⟨d, ds, hint, hd⟩ := t.int_digits.not_sign
  have hmem : d ∈ text.toList := by
    rw [← hchars, NumberText.chars, hint]
    simp
  -- The three words that are replaced have no digit, and this text has one.
  have hword : ∀ word : String, (word.toList.all fun c => !c.isDigit) = true → text ≠ word := by
    rintro word hword rfl
    have hnot := List.all_eq_true.mp hword d hmem
    simp [hd] at hnot
  rw [dumpsFloat, if_neg (hword _ (by decide)), if_neg (hword _ (by decide)),
    if_neg (hword _ (by decide))]

theorem Scans.float {text : String} (h : IsFloat reprFloat text ∨ text = "nan" ∨ text = "inf" ∨
    text = "-inf") : Scans reprFloat (dumpsFloat text).toList (.float text) := by
  rcases h with ⟨t, hchars, hform, hrepr⟩ | rfl | rfl | rfl
  · have hnumber : Scans reprFloat _ _ := number t fun h => absurd h hform
    rw [if_neg hform, hchars, String.ofList_toList, hrepr] at hnumber
    rwa [dumpsFloat_of_isFloat ⟨t, hchars, hform, hrepr⟩]
  · exact of_atom _ "aN".toList rfl (by decide) fun _ => rfl
  · exact of_atom _ "nfinity".toList rfl (by decide) fun _ => rfl
  · exact of_atom _ "Infinity".toList rfl (by decide) fun _ => rfl

mutual

/-- The value with every `dict` as its entries, where a repeated key is one entry. -/
def normal : Json → Json
  | .arr items => .arr (normalItems items)
  | .obj pairs => .obj (members (normalPairs pairs)).entries
  | value => value

def normalItems : List Json → List Json
  | [] => []
  | item :: items => normal item :: normalItems items

def normalPairs : List (String × Json) → List (String × Json)
  | [] => []
  | (key, value) :: pairs => (key, normal value) :: normalPairs pairs

end

theorem normalItems_eq (items : List Json) : normalItems items = items.map normal := by
  induction items with
  | nil => rfl
  | cons item items ih =>
    rw [normalItems, ih]
    rfl

theorem normalPairs_eq (pairs : List (String × Json)) :
    normalPairs pairs = pairs.map fun p => (p.1, normal p.2) := by
  induction pairs with
  | nil => rfl
  | cons p pairs ih =>
    rw [normalPairs, ih]
    rfl

theorem renderItems_eq (style : Style) (items : List Json) :
    renderItems style items = items.map (render style) := by
  induction items with
  | nil => rfl
  | cons item items ih =>
    rw [renderItems, ih]
    rfl

/-- Entries whose values are mapped are the mapped entries. -/
theorem entries_members_map {β γ : Type} (f : β → γ) (pairs : List (String × β)) :
    (members (pairs.map fun p => (p.1, f p.2))).entries =
      (members pairs).entries.map fun p => (p.1, f p.2) := by
  induction pairs using List.reverseRecOn with
  | nil => rfl
  | append_singleton pairs p ih =>
    unfold members at ih ⊢
    rw [List.map_append, List.foldl_append, List.foldl_append]
    show Dict.assign p.1 (f p.2) _ = (Dict.assign p.1 p.2 _).map _
    rw [ih, Dict.assign_map]

/-- A `dict` with different keys and normal values is its own normal form. -/
theorem normal_obj {pairs : List (String × Json)} (hkeys : (pairs.map Prod.fst).Nodup)
    (hvalues : ∀ p ∈ pairs, normal p.2 = p.2) : normal (.obj pairs) = .obj pairs := by
  have hpairs : normalPairs pairs = pairs := by
    have hpair : ∀ p ∈ pairs, (p.1, normal p.2) = id p :=
      fun p hp => Prod.ext rfl (hvalues p hp)
    rw [normalPairs_eq, List.map_congr_left hpair, List.map_id]
  rw [normal, hpairs, entries_members hkeys]

theorem normal_arr {items : List Json} (h : ∀ v ∈ items, normal v = v) :
    normal (.arr items) = .arr items := by
  rw [normal, normalItems_eq]
  exact congrArg Json.arr ((List.map_congr_left h).trans (List.map_id items))

theorem toList_joined (texts : List String) :
    (", ".intercalate texts).toList = Scans.joined (texts.map String.toList) := by
  rw [String.toList_intercalate]
  rfl

theorem toList_dumps_arr (ensureAscii : Bool) (items : List Json) :
    (dumps ensureAscii (.arr items)).toList =
      '[' :: (Scans.joined (items.map fun v => (dumps ensureAscii v).toList) ++ [']']) := by
  show ("[" ++ ", ".intercalate (renderItems _ items) ++ "]").toList = _
  rw [String.toList_append, String.toList_append, toList_joined, renderItems_eq, List.map_map]
  rfl

theorem toList_dumps_obj (ensureAscii : Bool) (pairs : List (String × Json)) :
    (dumps ensureAscii (.obj pairs)).toList =
      '\x7b' :: (Scans.joined ((members pairs).entries.map fun p =>
        (escape ensureAscii p.1).toList ++ ':' :: ' ' :: (dumps ensureAscii p.2).toList) ++
          ['\x7d']) := by
  show ("\x7b" ++ ", ".intercalate ((members (renderPairs _ pairs)).entries.map _) ++
    "\x7d").toList = _
  rw [String.toList_append, String.toList_append, toList_joined, renderPairs_eq,
    entries_members_map, List.map_map, List.map_map]
  have hmember : ∀ p : String × Json, (escape ensureAscii p.1 ++ ": " ++
      dumps ensureAscii p.2).toList =
        (escape ensureAscii p.1).toList ++ ':' :: ' ' :: (dumps ensureAscii p.2).toList := by
    intro p
    simp [String.toList_append]
  exact congrArg (fun texts => '\x7b' :: (Scans.joined texts ++ ['\x7d']))
    (List.map_congr_left fun p _ => hmember p)

/-- **A dumped value is scanned as its normal form.** -/
theorem scans_dumps (ensureAscii : Bool) {value : Json} (h : Readable reprFloat value) :
    Scans reprFloat (dumps ensureAscii value).toList (normal value) := by
  induction h with
  | null => exact Scans.null
  | bool b => exact Scans.bool b
  | int h => exact Scans.int h
  | float h => exact Scans.float h
  | str s => exact Scans.str ensureAscii s
  | @arr items _ ih =>
    have hvalues : ∀ i ∈ items.map fun v => ((dumps ensureAscii v).toList, normal v),
        Scans reprFloat i.1 i.2 := by
      intro i hi
      obtain ⟨v, hv, rfl⟩ := List.mem_map.mp hi
      exact ih v hv
    have hscans := Scans.arr hvalues
    rw [List.map_map, List.map_map] at hscans
    rw [toList_dumps_arr, normal, normalItems_eq]
    exact hscans
  | @obj pairs _ ih =>
    have hvalues : ∀ m ∈ (members pairs).entries.map fun p =>
        (p.1, (dumps ensureAscii p.2).toList, normal p.2), Scans reprFloat m.2.1 m.2.2 := by
      intro m hm
      obtain ⟨p, hp, rfl⟩ := List.mem_map.mp hm
      exact ih p (mem_of_mem_members hp)
    have hscans := Scans.obj ensureAscii hvalues
    rw [List.map_map, List.map_map] at hscans
    rw [toList_dumps_obj, normal, normalPairs_eq, entries_members_map]
    exact hscans

/-- **What `json.dumps` writes, `json.loads` reads**, in the form of the `dict`. -/
theorem loads_dumps (ensureAscii : Bool) {value : Json} (h : Readable reprFloat value) :
    loads reprFloat (dumps ensureAscii value) = some (normal value) := by
  have hscans := scans_dumps ensureAscii h
  have hskip := hscans.skip []
  have hlength : (dumps ensureAscii value).toList.length = (dumps ensureAscii value).length :=
    String.length_toList
  have hscan := hscans.scan ((dumps ensureAscii value).length + 1) []
    (by omega) fun c hc => absurd hc (by simp)
  rw [List.append_nil] at hskip hscan
  rw [loads, hskip, hscan]
  rfl

end Scan

end Json
end Python
end ObservabilityStack
