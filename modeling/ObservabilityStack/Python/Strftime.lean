import Mathlib.Algebra.Order.Field.Rat
import Mathlib.Data.Nat.Digits.Defs
import ObservabilityStack.Lib.Calendar

/-!
# `time.strftime`, as `logging.Formatter.formatTime` calls it

`formatTime(record, datefmt)` is `strftime(datefmt, localtime(record.created))`. The zone of the
process is its offset from UTC at that moment, in minutes; `%z` prints it as a sign, two digits
for the hours and two for the minutes, and nothing between them.

The text is built from the directives one by one, so that a fact about a time stamp comes down to
facts about padded numbers: how many digits they have, and that all of them are digits. Which
directives are listed is what the configured formats use. One that is not listed is copied, and no
format here has one.

The offset is the caller's, for any moment: there is no table of zones. A result for every offset
is therefore one for every zone and every history of its clocks.
-/

set_option autoImplicit false

namespace ObservabilityStack
namespace Python

/-- `n` in decimal, zero-padded to `width`. -/
def pad (width n : ℕ) : List Char :=
  let digits := Nat.toDigits 10 n
  List.replicate (width - digits.length) '0' ++ digits

structure LocalTime where
  date : Calendar.Date
  hour : ℕ
  minute : ℕ
  second : ℕ
  gmtoff : ℤ
  deriving DecidableEq, Repr

/-- `time.localtime(created)` where the clocks are `gmtoff` minutes ahead of UTC. -/
def localtime (created : ℚ) (gmtoff : ℤ) : LocalTime :=
  let t := created.floor + 60 * gmtoff
  { date := Calendar.ofDays (t / 86400)
    hour := (t % 86400 / 3600).toNat
    minute := (t % 3600 / 60).toNat
    second := (t % 60).toNat
    gmtoff := gmtoff }

/-- What a `%` and a character are replaced by. -/
def directive (t : LocalTime) : Char → List Char
  | 'Y' => (toString t.date.year).toList
  | 'm' => pad 2 t.date.month.toNat
  | 'd' => pad 2 t.date.day.toNat
  | 'H' => pad 2 t.hour
  | 'M' => pad 2 t.minute
  | 'S' => pad 2 t.second
  | 'z' => (if t.gmtoff < 0 then '-' else '+') ::
      pad 4 (t.gmtoff.natAbs / 60 * 100 + t.gmtoff.natAbs % 60)
  | '%' => ['%']
  | c => ['%', c]

def strftime (t : LocalTime) : List Char → List Char
  | '%' :: c :: format => directive t c ++ strftime t format
  | c :: format => c :: strftime t format
  | [] => []

/-- `Formatter.formatTime(record, datefmt)`. -/
def formatTime (datefmt : String) (created : ℚ) (gmtoff : ℤ) : String :=
  String.ofList (strftime (localtime created gmtoff) datefmt.toList)

example : formatTime "%Y-%m-%dT%H:%M:%S%z" (1700000000 + 1 / 2) (-150) =
    "2023-11-14T19:43:20-0230" := by decide +kernel

/-! ## Padded numbers -/

theorem isDigit_of_mem_pad {width n : ℕ} {c : Char} (h : c ∈ pad width n) : c.isDigit = true := by
  unfold pad at h
  rcases List.mem_append.mp h with h | h
  · rw [List.eq_of_mem_replicate h]
    decide
  · exact Nat.isDigit_of_mem_toDigits (by decide) (by decide) h

theorem le_length_pad (width n : ℕ) : width ≤ (pad width n).length := by
  simp only [pad, List.length_append, List.length_replicate]
  omega

/-- One digit more: the last one comes last. -/
theorem pad_succ {width n : ℕ} (hwidth : 0 < width) :
    pad (width + 1) n = pad width (n / 10) ++ [(n % 10).digitChar] := by
  unfold pad
  by_cases hn : n < 10
  · obtain ⟨w, rfl⟩ : ∃ w, width = w + 1 := ⟨width - 1, by omega⟩
    have hdiv : n / 10 = 0 := by omega
    have hmod : n % 10 = n := by omega
    rw [hdiv, hmod, Nat.toDigits_of_lt_base hn, Nat.toDigits_of_lt_base (by decide)]
    simp [List.replicate_succ']
  · rw [Nat.toDigits_of_base_le (by decide) (by omega)]
    simp

end Python
end ObservabilityStack
