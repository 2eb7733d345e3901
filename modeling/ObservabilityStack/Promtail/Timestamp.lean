import ObservabilityStack.AlertSink.Logging
import ObservabilityStack.Python.Strftime

/-!
# `promtail/promtail-config.yml`: the `timestamp` stage

The stage reads the field `ts` of a line as a time in Go's layout `RFC3339`: a date, `T`, a time
of day, perhaps a fraction of a second, and the zone, which is `Z` or a sign and `HH:MM`. When the
text is anything else the stage leaves the line the time at which it was read.

Both services write `ts` with `%z`, which puts no colon between the hours and the minutes. An
accepted text ends in `Z` or has a colon in the third place from its end (`parseRFC3339_ends`), a
written one has a digit in both places, so no timestamp is ever accepted. Nothing but the colon is
missing: `parseRFC3339_of_colon` reads the same text with one back to the instant it came from.

The layout is written as a reader of characters, and not as a specification of texts, because the
first result is negative: that nothing the formatter writes is accepted, at any instant and in
any zone. What is used of the reader for that is how an accepted text has to end. That it is the
right reader is then supported by the positive result, which uses all of it.

The year is between 1000 and 9999 in the positive result: `%Y` does not pad, and the layout takes
four digits. The seconds of a leap are not accepted by the layout and not written by the formatter.
-/

set_option autoImplicit false

namespace ObservabilityStack
namespace Promtail

open Calendar (Date)
open Python (Json)

/-! ## Go's layout `RFC3339`

Every reader takes a part off the front of the text, or fails. They are in the order of the
layout. -/

/-- Exactly `k` digits, after a number that was read as `n` so far. -/
def number : ℕ → ℕ → List Char → Option (ℕ × List Char)
  | 0, n, cs => some (n, cs)
  | k + 1, n, c :: cs => if c.isDigit then number k (10 * n + (c.toNat - 48)) cs else none
  | _ + 1, _, [] => none

/-- The character `c`, which the layout has at this place. -/
def skip (c : Char) : List Char → Option (List Char)
  | d :: cs => if c = d then some cs else none
  | [] => none

/-- Year, month and day of the layout; a day the month does not have is refused. -/
def readDate (cs : List Char) : Option (Date × List Char) := do
  let (year, cs) ← number 4 0 cs
  let cs ← skip '-' cs
  let (month, cs) ← number 2 0 cs
  let cs ← skip '-' cs
  let (day, cs) ← number 2 0 cs
  if 1 ≤ month ∧ month ≤ 12 ∧ 1 ≤ day ∧ (day : ℤ) ≤ Calendar.daysIn year month then
    some (⟨year, month, day⟩, cs)
  else none

/-- The time of day in seconds. -/
def readClock (cs : List Char) : Option (ℕ × List Char) := do
  let (hour, cs) ← number 2 0 cs
  let cs ← skip ':' cs
  let (minute, cs) ← number 2 0 cs
  let cs ← skip ':' cs
  let (second, cs) ← number 2 0 cs
  if hour < 24 ∧ minute < 60 ∧ second < 60 then some (3600 * hour + 60 * minute + second, cs)
  else none

/-- A fraction of a second, when the text goes on with one. -/
def readFraction : List Char → ℚ × List Char
  | c :: d :: cs =>
      if (c = '.' ∨ c = ',') ∧ d.isDigit then
        let digits := (d :: cs).takeWhile Char.isDigit
        ((digits.foldl (fun n c => 10 * n + (c.toNat - 48)) 0 : ℕ) / 10 ^ digits.length,
          (d :: cs).dropWhile Char.isDigit)
      else (0, c :: d :: cs)
  | cs => (0, cs)

/-- The offset from UTC in minutes; the text has to end with it. -/
def readZone : List Char → Option ℤ
  | [] => none
  | sign :: cs =>
      if sign = 'Z' ∧ cs = [] then some 0
      else do
        let (hours, cs) ← number 2 0 cs
        let cs ← skip ':' cs
        let (minutes, cs) ← number 2 0 cs
        if cs = [] ∧ hours ≤ 24 ∧ minutes ≤ 60 then
          if sign = '+' then some (60 * hours + minutes)
          else if sign = '-' then some (-(60 * hours + minutes))
          else none
        else none

/-- `time.Parse(time.RFC3339, text)`, in seconds from the epoch. -/
def parseRFC3339 (text : String) : Option ℚ := do
  let (date, cs) ← readDate text.toList
  let cs ← skip 'T' cs
  let (seconds, cs) ← readClock cs
  let (fraction, cs) := readFraction cs
  let offset ← readZone cs
  some ((86400 * Calendar.toDays date + seconds - 60 * offset : ℤ) + fraction)

/-- The `timestamp` stage with source `ts`, on the fields of a line; `none` is the time of
    ingestion. -/
def timestamp (fields : List (String × Json)) : Option ℚ :=
  match Json.get fields "ts" with
  | .str text => parseRFC3339 text
  | _ => none

/-! ## How an accepted text ends

Each reader leaves a suffix of what it was given, and the zone is the last one. So an accepted text
ends in a zone, and a zone with a colon ends in a certain way. -/

theorem number_spec {k n m : ℕ} {cs rest : List Char} (h : number k n cs = some (m, rest)) :
    ∃ ds, cs = ds ++ rest ∧ ds.length = k := by
  induction k generalizing n cs with
  | zero =>
    simp only [number, Option.some.injEq, Prod.mk.injEq] at h
    exact ⟨[], h.2, rfl⟩
  | succ k ih =>
    cases cs with
    | nil => cases h
    | cons c cs =>
      simp only [number] at h
      split at h
      · obtain ⟨ds, rfl, hlen⟩ := ih h
        exact ⟨c :: ds, rfl, by rw [List.length_cons, hlen]⟩
      · cases h

theorem skip_spec {c : Char} {cs rest : List Char} (h : skip c cs = some rest) :
    cs = c :: rest := by
  cases cs with
  | nil => cases h
  | cons d cs =>
    simp only [skip] at h
    split at h
    · rename_i hc
      cases h
      rw [hc]
    · cases h

theorem readDate_suffix {cs rest : List Char} {d : Date} (h : readDate cs = some (d, rest)) :
    rest <:+ cs := by
  simp only [readDate, Option.bind_eq_bind, Option.bind_eq_some_iff, Prod.exists] at h
  obtain ⟨_, c₁, h₁, c₂, h₂, _, c₃, h₃, c₄, h₄, _, c₅, h₅, h⟩ := h
  split at h
  · cases h
    obtain ⟨d₁, rfl, _⟩ := number_spec h₁
    obtain ⟨d₃, rfl, _⟩ := number_spec h₃
    obtain ⟨d₅, rfl, _⟩ := number_spec h₅
    rw [skip_spec h₂, skip_spec h₄]
    exact ⟨d₁ ++ '-' :: (d₃ ++ '-' :: d₅), by simp⟩
  · cases h

theorem readClock_suffix {cs rest : List Char} {t : ℕ} (h : readClock cs = some (t, rest)) :
    rest <:+ cs := by
  simp only [readClock, Option.bind_eq_bind, Option.bind_eq_some_iff, Prod.exists] at h
  obtain ⟨_, c₁, h₁, c₂, h₂, _, c₃, h₃, c₄, h₄, _, c₅, h₅, h⟩ := h
  split at h
  · cases h
    obtain ⟨d₁, rfl, _⟩ := number_spec h₁
    obtain ⟨d₃, rfl, _⟩ := number_spec h₃
    obtain ⟨d₅, rfl, _⟩ := number_spec h₅
    rw [skip_spec h₂, skip_spec h₄]
    exact ⟨d₁ ++ ':' :: (d₃ ++ ':' :: d₅), by simp⟩
  · cases h

theorem readFraction_suffix (cs : List Char) : (readFraction cs).2 <:+ cs := by
  unfold readFraction
  split
  · split
    · exact (List.dropWhile_suffix _).trans (List.suffix_cons _ _)
    · exact List.suffix_rfl
  · exact List.suffix_rfl

/-- The last three characters of a text that ends in a zone, or its last one. -/
theorem readZone_ends {cs : List Char} {offset : ℤ} (h : readZone cs = some offset) :
    cs = ['Z'] ∨ ∃ sign a b c d, cs = [sign, a, b, ':', c, d] := by
  cases cs with
  | nil => cases h
  | cons sign cs =>
    simp only [readZone] at h
    split at h
    · rename_i hz
      obtain ⟨rfl, rfl⟩ := hz
      exact Or.inl rfl
    · simp only [Option.bind_eq_bind, Option.bind_eq_some_iff, Prod.exists] at h
      obtain ⟨_, c₁, h₁, c₂, h₂, _, c₃, h₃, h⟩ := h
      split at h
      · rename_i hend
        obtain ⟨ds, rfl, hlen⟩ := number_spec h₁
        obtain ⟨es, rfl, hlen'⟩ := number_spec h₃
        obtain ⟨a, b, rfl⟩ := List.length_eq_two.mp hlen
        obtain ⟨c, d, rfl⟩ := List.length_eq_two.mp hlen'
        rw [skip_spec h₂, hend.1]
        exact Or.inr ⟨sign, a, b, c, d, rfl⟩
      · cases h

/-- **An accepted text** ends in `Z`, or has a colon in the third place from its end. -/
theorem parseRFC3339_ends {text : String} {t : ℚ} (h : parseRFC3339 text = some t) :
    ∃ front, text.toList = front ++ ['Z'] ∨ ∃ c d, text.toList = front ++ [':', c, d] := by
  simp only [parseRFC3339, Option.bind_eq_bind, Option.bind_eq_some_iff, Prod.exists] at h
  obtain ⟨_, c₁, h₁, c₂, h₂, _, c₃, h₃, offset, h₄, _⟩ := h
  have hsuffix : (readFraction c₃).2 <:+ text.toList :=
    (readFraction_suffix c₃).trans <| (readClock_suffix h₃).trans <|
      (skip_spec h₂ ▸ List.suffix_cons 'T' c₂).trans (readDate_suffix h₁)
  obtain ⟨front, hfront⟩ := hsuffix
  rcases readZone_ends h₄ with hz | ⟨sign, a, b, c, d, hz⟩
  · exact ⟨front, Or.inl (by rw [← hfront, hz])⟩
  · exact ⟨front ++ [sign, a, b], Or.inr ⟨c, d, by rw [← hfront, hz]; simp⟩⟩

/-! ## What the services write

The text of the formatter, by parts: what `parseRFC3339` calls the civil time, and the zone without
its colon. -/

/-- The text up to the zone. -/
def civil (t : Python.LocalTime) : List Char :=
  (toString t.date.year).toList ++ '-' :: (Python.pad 2 t.date.month.toNat ++
    '-' :: (Python.pad 2 t.date.day.toNat ++ 'T' :: (Python.pad 2 t.hour ++
      ':' :: (Python.pad 2 t.minute ++ ':' :: Python.pad 2 t.second))))

/-- The sign of the zone. -/
def sign (t : Python.LocalTime) : Char := if t.gmtoff < 0 then '-' else '+'

theorem strftime_datefmt (t : Python.LocalTime) :
    Python.strftime t SampleApp.datefmt.toList = civil t ++ sign t ::
      Python.pad 4 (t.gmtoff.natAbs / 60 * 100 + t.gmtoff.natAbs % 60) := by
  have hlist : SampleApp.datefmt.toList = ['%', 'Y', '-', '%', 'm', '-', '%', 'd', 'T', '%', 'H',
      ':', '%', 'M', ':', '%', 'S', '%', 'z'] := by decide
  rw [hlist]
  simp [Python.strftime, Python.directive, civil, sign]

/-- Neither the last nor the third character from the end of four digits is `Z` or a colon. -/
theorem pad_four_ends {n : ℕ} : ∃ front b c d, Python.pad 4 n = front ++ [b, c, d] ∧
    b.isDigit = true ∧ d.isDigit = true := by
  have hlen := Python.le_length_pad 4 n
  have hdigit : ∀ x ∈ Python.pad 4 n, x.isDigit = true := fun x => Python.isDigit_of_mem_pad
  generalize Python.pad 4 n = ds at hlen hdigit
  obtain ⟨b, c, d, htail⟩ := List.length_eq_three.mp
    (show (ds.drop (ds.length - 3)).length = 3 by rw [List.length_drop]; omega)
  have hsplit : ds = ds.take (ds.length - 3) ++ [b, c, d] := by
    rw [← htail, List.take_append_drop]
  refine ⟨_, b, c, d, hsplit, ?_, ?_⟩
  · apply hdigit
    rw [hsplit]
    simp
  · apply hdigit
    rw [hsplit]
    simp

/-- A text in the format of the services is never accepted. -/
theorem parseRFC3339_strftime (t : Python.LocalTime) :
    parseRFC3339 (String.ofList (Python.strftime t SampleApp.datefmt.toList)) = none := by
  rw [Option.eq_none_iff_forall_ne_some]
  intro x h
  obtain ⟨front, hend⟩ := parseRFC3339_ends h
  obtain ⟨ds, b, c, d, hpad, hb, hd⟩ :=
    pad_four_ends (n := t.gmtoff.natAbs / 60 * 100 + t.gmtoff.natAbs % 60)
  rw [String.toList_ofList, strftime_datefmt, hpad,
    show civil t ++ sign t :: (ds ++ [b, c, d]) = (civil t ++ sign t :: ds) ++ [b, c, d] by simp]
    at hend
  rcases hend with hz | ⟨c', d', hcolon⟩
  · have := congrArg List.getLast? hz
    simp only [List.getLast?_append, List.getLast?_singleton, List.getLast?_cons_cons,
      Option.some_or, Option.some.injEq] at this
    rw [this] at hd
    exact absurd hd (by decide)
  · have := (List.append_inj' hcolon rfl).2
    simp only [List.cons.injEq] at this
    rw [this.1] at hb
    exact absurd hb (by decide)

/-- The timestamp survives: the stage accepts `ts` and reads the instant back, to the second. -/
def Survives (datefmt : String) (created : ℚ) (gmtoff : ℤ) : Prop :=
  parseRFC3339 (Python.formatTime datefmt created gmtoff) = some (created.floor : ℚ)

/-- **No timestamp is accepted**, of either service, at any instant in any zone. -/
theorem ts_never_accepted (created : ℚ) (gmtoff : ℤ) :
    parseRFC3339 (Python.formatTime SampleApp.datefmt created gmtoff) = none ∧
      parseRFC3339 (Python.formatTime AlertSink.datefmt created gmtoff) = none :=
  ⟨parseRFC3339_strftime _, parseRFC3339_strftime _⟩

/-- One instant in one zone: `2023-11-15T01:13:20+0300`. -/
theorem ts_not_survives :
    ¬ ∀ created gmtoff, Survives SampleApp.datefmt created gmtoff ∧
      Survives AlertSink.datefmt created gmtoff := by
  intro h
  have hread : parseRFC3339 (Python.formatTime SampleApp.datefmt 1700000000 180) = none := by
    decide +kernel
  exact absurd (hread.symm.trans (h 1700000000 180).1) (by simp)

/-- So the stage leaves every line of the sample application its time of ingestion, as long as
    the caller logs no field `ts` of its own. -/
theorem timestamp_line (created : ℚ) (gmtoff : ℤ) (context : SampleApp.SpanContext)
    (record : SampleApp.LogRecord) (hextra : ∀ e ∈ record.extra, e.1 ≠ "ts") :
    timestamp (SampleApp.payloadPairs (Python.formatTime SampleApp.datefmt created gmtoff) context
      record) = none := by
  obtain ⟨rest, hpairs, hrest⟩ := SampleApp.payloadPairs_ts
    (Python.formatTime SampleApp.datefmt created gmtoff) context hextra
  have hget : Json.get (("ts", Json.str (Python.formatTime SampleApp.datefmt created gmtoff)) ::
      rest) "ts" = .str (Python.formatTime SampleApp.datefmt created gmtoff) := by
    unfold Json.get Json.getD Dict.getD
    rw [← List.singleton_append, Json.get?_members_append hrest]
    simp [Json.members, Dict.get?_set]
  unfold timestamp
  rw [hpairs, hget]
  exact parseRFC3339_strftime _

/-! ## With a colon

Now forwards: the readers on the text with the colon in it, one lemma for each part, and the
arithmetic that puts the instant together again. -/

/-- The value of digits read after `n`. -/
def value (n : ℕ) (ds : List Char) : ℕ := ds.foldl (fun n c => 10 * n + (c.toNat - 48)) n

theorem number_append (ds : List Char) (hdigit : ∀ c ∈ ds, c.isDigit = true) (n : ℕ)
    (rest : List Char) : number ds.length n (ds ++ rest) = some (value n ds, rest) := by
  induction ds generalizing n with
  | nil => rfl
  | cons c ds ih =>
    rw [List.length_cons, List.cons_append, number, if_pos (hdigit c (by simp)),
      ih fun d hd => hdigit d (by simp [hd])]
    rfl

theorem digitChar_value {d : ℕ} (h : d < 10) : d.digitChar.toNat - 48 = d := by
  interval_cases d <;> rfl

theorem pad_value : ∀ {width n : ℕ}, 0 < width → n < 10 ^ width →
    (Python.pad width n).length = width ∧ value 0 (Python.pad width n) = n
  | 1, n, _, hn => by
    have hn : n < 10 := by simpa using hn
    have hpad : Python.pad 1 n = [n.digitChar] := by
      rw [Python.pad, Nat.toDigits_of_lt_base hn]
      rfl
    rw [hpad]
    exact ⟨rfl, by simp [value, digitChar_value hn]⟩
  | width + 2, n, _, hn => by
    have hn' : n / 10 < 10 ^ (width + 1) := by
      rw [Nat.div_lt_iff_lt_mul (by decide), ← pow_succ]
      exact hn
    obtain ⟨hlen, hval⟩ := pad_value (Nat.succ_pos width) hn'
    have hmod : n % 10 < 10 := Nat.mod_lt _ (by decide)
    rw [Python.pad_succ (Nat.succ_pos width)]
    constructor
    · rw [List.length_append, hlen, List.length_singleton]
    · rw [value, List.foldl_append]
      show 10 * value 0 (Python.pad (width + 1) (n / 10)) + ((n % 10).digitChar.toNat - 48) = n
      rw [hval, digitChar_value hmod]
      omega

theorem number_pad {width n : ℕ} (hwidth : 0 < width) (hn : n < 10 ^ width) (rest : List Char) :
    number width 0 (Python.pad width n ++ rest) = some (n, rest) := by
  obtain ⟨hlen, hval⟩ := pad_value hwidth hn
  have := number_append (Python.pad width n) (fun c hc => Python.isDigit_of_mem_pad hc) 0 rest
  rw [hlen, hval] at this
  exact this

/-- A year of four digits prints as one. -/
theorem year_text {year : ℤ} (h₀ : 1000 ≤ year) (h₁ : year ≤ 9999) :
    (toString year).toList = Python.pad 4 year.toNat := by
  obtain ⟨n, rfl⟩ := Int.eq_ofNat_of_zero_le (show 0 ≤ year by omega)
  have hn : 1000 ≤ n := by omega
  show (Nat.repr n).toList = Python.pad 4 n
  rw [Nat.repr, String.toList_ofList, Python.pad]
  have hlen : 4 ≤ (Nat.toDigits 10 n).length := by
    rw [Nat.toDigits_of_base_le (by decide) (by omega),
      Nat.toDigits_of_base_le (by decide) (by omega),
      Nat.toDigits_of_base_le (by decide) (by omega)]
    have := List.length_pos_of_ne_nil (Nat.toDigits_ne_nil (b := 10) (n := n / 10 / 10 / 10))
    simp only [List.length_append, List.length_singleton]
    omega
  rw [Nat.sub_eq_zero_of_le hlen]
  rfl

theorem skip_self (c : Char) (cs : List Char) : skip c (c :: cs) = some cs := by
  simp [skip]

theorem readDate_civil {d : Date} (hvalid : d.Valid) (h₀ : 1000 ≤ d.year) (h₁ : d.year ≤ 9999)
    (rest : List Char) :
    readDate ((toString d.year).toList ++ '-' :: (Python.pad 2 d.month.toNat ++
      '-' :: (Python.pad 2 d.day.toNat ++ rest))) = some (d, rest) := by
  obtain ⟨hm₀, hm₁, hd₀, hd₁⟩ := hvalid
  have hday : d.day ≤ 31 := hd₁.trans (by unfold Calendar.daysIn; split <;> split <;> omega)
  have hyear : ((d.year.toNat : ℕ) : ℤ) = d.year := Int.toNat_of_nonneg (by omega)
  have hmonth : ((d.month.toNat : ℕ) : ℤ) = d.month := Int.toNat_of_nonneg (by omega)
  have hdays : ((d.day.toNat : ℕ) : ℤ) = d.day := Int.toNat_of_nonneg (by omega)
  unfold readDate
  rw [year_text h₀ h₁, number_pad (by decide) (by omega)]
  simp only [Option.bind_eq_bind, Option.bind_some, skip_self]
  rw [number_pad (by decide) (by omega)]
  simp only [Option.bind_some, skip_self]
  rw [number_pad (by decide) (by omega)]
  simp only [Option.bind_some, hyear, hmonth, hdays]
  rw [if_pos ⟨by omega, by omega, by omega, hd₁⟩]

theorem readClock_civil {hour minute second : ℕ} (hh : hour < 24) (hm : minute < 60)
    (hs : second < 60) (rest : List Char) :
    readClock (Python.pad 2 hour ++ ':' :: (Python.pad 2 minute ++
      ':' :: (Python.pad 2 second ++ rest))) =
      some (3600 * hour + 60 * minute + second, rest) := by
  unfold readClock
  rw [number_pad (by decide) (by omega)]
  simp only [Option.bind_eq_bind, Option.bind_some, skip_self]
  rw [number_pad (by decide) (by omega)]
  simp only [Option.bind_some, skip_self]
  rw [number_pad (by decide) (by omega)]
  simp only [Option.bind_some]
  rw [if_pos ⟨hh, hm, hs⟩]

/-- The zone with a colon in it. -/
def zoneWithColon (t : Python.LocalTime) : List Char :=
  sign t :: (Python.pad 2 (t.gmtoff.natAbs / 60) ++ ':' :: Python.pad 2 (t.gmtoff.natAbs % 60))

theorem readZone_withColon {t : Python.LocalTime} (h : t.gmtoff.natAbs < 24 * 60) :
    readZone (zoneWithColon t) = some t.gmtoff := by
  have hz : sign t ≠ 'Z' := by
    unfold sign
    split <;> decide
  have hlast : number 2 0 (Python.pad 2 (t.gmtoff.natAbs % 60) ++ []) =
      some (t.gmtoff.natAbs % 60, []) := number_pad (by decide) (by omega) []
  rw [List.append_nil] at hlast
  unfold readZone zoneWithColon
  dsimp only
  rw [if_neg fun hc => hz hc.1, number_pad (by decide) (by omega)]
  simp only [Option.bind_eq_bind, Option.bind_some, skip_self, hlast]
  rw [if_pos ⟨trivial, by omega, by omega⟩]
  unfold sign
  by_cases hneg : t.gmtoff < 0
  · rw [if_pos hneg, if_neg (by decide), if_pos rfl]
    congr 1
    omega
  · rw [if_neg hneg, if_pos rfl]
    congr 1
    omega

/-- Between the seconds and the zone there is no fraction. -/
theorem readFraction_zone (t : Python.LocalTime) :
    readFraction (zoneWithColon t) = (0, zoneWithColon t) := by
  have hsign : ¬ (sign t = '.' ∨ sign t = ',') := by
    unfold sign
    split <;> decide
  unfold readFraction
  split
  · rename_i c d cs hzone
    have hc : sign t = c := (List.cons.inj hzone).1
    rw [if_neg fun h => hsign (hc ▸ h.1), hzone]
  · rfl

/-- **With the colon the instant is read back**, from any second of the years 1000 to 9999 and in
    any zone less than a day away from UTC. -/
theorem parseRFC3339_of_colon (created : ℚ) {gmtoff : ℤ} (hoff : gmtoff.natAbs < 24 * 60)
    (h₀ : 1000 ≤ (Python.localtime created gmtoff).date.year)
    (h₁ : (Python.localtime created gmtoff).date.year ≤ 9999) :
    parseRFC3339 (String.ofList (civil (Python.localtime created gmtoff) ++
      zoneWithColon (Python.localtime created gmtoff))) = some (created.floor : ℚ) := by
  have hvalid : (Python.localtime created gmtoff).date.Valid := Calendar.ofDays_valid _
  have hdays := Calendar.toDays_ofDays ((created.floor + 60 * gmtoff) / 86400)
  have hzone : readZone (zoneWithColon (Python.localtime created gmtoff)) = some gmtoff :=
    readZone_withColon hoff
  have hfraction := readFraction_zone (Python.localtime created gmtoff)
  -- The parts of the clock are remainders, so they are in the ranges that the layout checks.
  have hhour : (Python.localtime created gmtoff).hour < 24 := by
    show ((created.floor + 60 * gmtoff) % 86400 / 3600).toNat < 24
    omega
  have hminute : (Python.localtime created gmtoff).minute < 60 := by
    show ((created.floor + 60 * gmtoff) % 3600 / 60).toNat < 60
    omega
  have hsecond : (Python.localtime created gmtoff).second < 60 := by
    show ((created.floor + 60 * gmtoff) % 60).toNat < 60
    omega
  have hclock := readClock_civil hhour hminute hsecond
    (zoneWithColon (Python.localtime created gmtoff))
  unfold parseRFC3339 civil
  simp only [String.toList_ofList, List.append_assoc, List.cons_append]
  rw [readDate_civil hvalid h₀ h₁]
  simp only [Option.bind_eq_bind, Option.bind_some, skip_self, hclock, hfraction, hzone, add_zero]
  congr 2
  show 86400 * Calendar.toDays (Calendar.ofDays ((created.floor + 60 * gmtoff) / 86400)) +
    ((3600 * ((created.floor + 60 * gmtoff) % 86400 / 3600).toNat +
      60 * ((created.floor + 60 * gmtoff) % 3600 / 60).toNat +
      ((created.floor + 60 * gmtoff) % 60).toNat : ℕ) : ℤ) - 60 * gmtoff = created.floor
  rw [hdays]
  omega

end Promtail
end ObservabilityStack
