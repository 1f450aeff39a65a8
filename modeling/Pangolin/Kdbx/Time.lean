import Pangolin.Kdbx.Totp
import Pangolin.Lib.Calendar
import Pangolin.Lib.Rfc4648

/-!
# KeePass times

A time is written as ISO 8601 text, or in base64 as the seconds since the year 1.  Both are
read as Unix seconds.
-/

namespace Pangolin.Kdbx

open Store Utf8 Calendar

/-! ## Reading a time -/

/-- `str::parse` of an `i64`. -/
def parseI64 (text : Text) : Option Int :=
  let signed := text.head? = some '-' || text.head? = some '+'
  let digits := if signed then text.drop 1 else text
  if digits.isEmpty || !digits.all Char.isDigit then
    none
  else
    let magnitude : Int :=
      (digits.foldl (fun value digit => value * 10 + (digit.toNat - '0'.toNat)) 0 : Nat)
    let value := if text.head? = some '-' then -magnitude else magnitude
    if -2 ^ 63 ≤ value ∧ value < 2 ^ 63 then some value else none

/-- `str::get` of a byte range. -/
def getRange (text : Text) (start stop : Nat) : Option Text :=
  if stop ≤ (encode text).length then decode? (((encode text).take stop).drop start) else none

/-- `parse_iso8601`. -/
def parseIso8601 (text : Text) : Option Int :=
  if (encode text).length < 19 then
    none
  else do
    let num := fun start stop => (getRange text start stop).bind parseI64
    let year ← num 0 4
    let month ← num 5 7
    let day ← num 8 10
    let hour ← num 11 13
    let min ← num 14 16
    let sec ← num 17 19
    if ¬ (1 ≤ year ∧ year ≤ 9999) ∨ ¬ (1 ≤ month ∧ month ≤ 12) ∨ ¬ (1 ≤ day ∧ day ≤ 31) ∨
        ¬ (0 ≤ hour ∧ hour ≤ 23) ∨ ¬ (0 ≤ min ∧ min ≤ 59) ∨ ¬ (0 ≤ sec ∧ sec ≤ 60) then
      none
    else
      let y := if month ≤ 2 then year - 1 else year
      let era := (if 0 ≤ y then y else y - 399).tdiv 400
      let yoe := y - era * 400
      let doy := (153 * (if 2 < month then month - 3 else month + 9) + 2).tdiv 5 + day - 1
      let doe := yoe * 365 + yoe.tdiv 4 - yoe.tdiv 100 + doy
      let days := era * 146097 + doe - 719468
      return days * 86400 + hour * 3600 + min * 60 + sec

/-- `i64::from_le_bytes`. -/
def fromLeBytes (bytes : List UInt8) : Int :=
  let raw : Nat := bytes.foldr (fun byte high => high * 256 + byte.toNat) 0
  if raw < 2 ^ 63 then raw else (raw : Int) - 2 ^ 64

/-- `parse_kdbx_time`, with the standard engine of the `base64` crate. -/
def parseKdbxTime (decodeBase64 : List UInt8 → Option (List UInt8)) (text : Text) : Option Int :=
  let trimmed := trim text
  let bytes := encode trimmed
  if trimmed.isEmpty then
    none
  else if 10 ≤ bytes.length ∧ bytes[4]? = some 0x2D then
    parseIso8601 trimmed
  else
    match decodeBase64 bytes with
    | none => none
    | some raw =>
        if raw.length < 8 then
          none
        else
          let secsSince0001 := fromLeBytes (raw.take 8)
          let secs := secsSince0001 - 62135596800
          if -2 ^ 63 ≤ secs then some secs else none

/-! ## Writing a time -/

/-- A second of the years 1 to 9999. -/
structure Instant extends Date where
  hour : Nat
  minute : Nat
  second : Nat
  yearInRange : year ≤ 9999
  hourInRange : hour ≤ 23
  minuteInRange : minute ≤ 59
  secondInRange : second ≤ 59

def Instant.Before (first second : Instant) : Prop :=
  first.toDate.Before second.toDate ∨ first.toDate = second.toDate ∧
    (first.hour < second.hour ∨ first.hour = second.hour ∧
      (first.minute < second.minute ∨ first.minute = second.minute ∧
        first.second < second.second))

/-- The seconds since 0001-01-01T00:00:00Z. -/
def Instant.sinceYearOne (instant : Instant) : Nat :=
  instant.number * 86400 + instant.hour * 3600 + instant.minute * 60 + instant.second

def unixEpoch : Date := ⟨1970, 1, 1, by decide, by decide, by decide⟩

/-- The seconds since 1970-01-01T00:00:00Z. -/
def Instant.unixTime (instant : Instant) : Int :=
  ((instant.number : Int) - unixEpoch.number) * 86400 + instant.hour * 3600 +
    instant.minute * 60 + instant.second

/-- The last decimal digit of a number. -/
def digitChar (number : Nat) : Char := Char.ofNat (number % 10 + 48)

/-- `YYYY-MM-DDThh:mm:ssZ`. -/
def isoText (instant : Instant) : Text :=
  [digitChar (instant.year / 1000), digitChar (instant.year / 100), digitChar (instant.year / 10),
    digitChar instant.year, '-', digitChar (instant.month / 10), digitChar instant.month, '-',
    digitChar (instant.day / 10), digitChar instant.day, 'T', digitChar (instant.hour / 10),
    digitChar instant.hour, ':', digitChar (instant.minute / 10), digitChar instant.minute, ':',
    digitChar (instant.second / 10), digitChar instant.second, 'Z']

/-- `u64::to_le_bytes`. -/
def toLeBytes (value : Nat) : List UInt8 :=
  (List.range 8).map fun index => UInt8.ofNat (value / 256 ^ index)

/-- The KDBX4 form of an instant. -/
def base64Time (instant : Instant) : Text := Rfc4648.base64 (toLeBytes instant.sinceYearOne)

/-! ## Texts of ASCII characters -/

def isGraphic (char : Char) : Bool := 0x20 < char.toNat && char.toNat < 0x7F

theorem trim_of_graphic {text : Text} (graphic : ∀ char ∈ text, isGraphic char = true) :
    trim text = text := by
  have ink : ∀ char ∈ text, isWhitespace char = false := by
    intro char member
    have range := graphic char member
    simp only [isGraphic, Bool.and_eq_true, decide_eq_true_eq] at range
    simp only [isWhitespace, Bool.or_eq_false_iff, Bool.and_eq_false_iff, decide_eq_false_iff_not]
    omega
  have front : text.dropWhile isWhitespace = text := by
    cases text with
    | nil => rfl
    | cons char text =>
        rw [List.dropWhile_cons_of_neg]
        rw [ink char List.mem_cons_self]
        decide
  rw [trim, front, List.rdropWhile_eq_self_iff]
  intro nonempty
  rw [ink _ (List.getLast_mem nonempty)]
  decide

theorem encode_graphic {text : Text} (graphic : ∀ char ∈ text, isGraphic char = true) :
    encode text = text.map fun char => char.val.toUInt8 := by
  apply encode_ascii
  intro char member
  have range := graphic char member
  simp only [isGraphic, Bool.and_eq_true, decide_eq_true_eq] at range
  omega

/-- Of such a text a byte range is a character range. -/
theorem getRange_graphic {text : Text} (graphic : ∀ char ∈ text, isGraphic char = true)
    {start stop : Nat} (within : stop ≤ text.length) :
    getRange text start stop = some ((text.take stop).drop start) := by
  have part : ∀ char ∈ (text.take stop).drop start, isGraphic char = true :=
    fun char member => graphic char (List.mem_of_mem_take (List.mem_of_mem_drop member))
  unfold getRange
  rw [encode_graphic graphic, List.length_map, if_pos within, ← List.map_take, ← List.map_drop,
    ← encode_graphic part, decode?_encode]

/-! ## Digits -/

theorem digitChar_cases (number : Nat) :
    (digitChar number).isDigit = true ∧ (digitChar number).toNat = number % 10 + 48 ∧
      isGraphic (digitChar number) = true := by
  have all : ∀ digit < 10, (Char.ofNat (digit + 48)).isDigit = true ∧
      (Char.ofNat (digit + 48)).toNat = digit + 48 ∧
      isGraphic (Char.ofNat (digit + 48)) = true := by decide
  exact all (number % 10) (Nat.mod_lt _ (by decide))

/-- Digits without a sign are read to the number they spell. -/
theorem parseI64_digits {char : Char} {text : Text} {value : Nat}
    (digits : ∀ digit ∈ char :: text, digit.isDigit = true)
    (spelled : (char :: text).foldl
      (fun value digit => value * 10 + (digit.toNat - '0'.toNat)) 0 = value)
    (fits : value < 10000) : parseI64 (char :: text) = some (value : Int) := by
  have unsigned : char ≠ '-' ∧ char ≠ '+' := by
    have first := digits char List.mem_cons_self
    constructor
    · intro equal
      rw [equal] at first
      cases first
    · intro equal
      rw [equal] at first
      cases first
  have all : (char :: text).all Char.isDigit = true := List.all_eq_true.mpr digits
  have range : (-9223372036854775808 : Int) ≤ value ∧ (value : Int) < 9223372036854775808 := by
    omega
  unfold parseI64
  simp only [List.head?_cons, Option.some.injEq, unsigned, decide_false, Bool.or_false,
    Bool.false_eq_true, if_false, List.isEmpty_cons, all, Bool.not_true, spelled]
  exact if_pos range

/-- Two digits are read to the number they are of. -/
theorem parseI64_two {number : Nat} (small : number < 100) :
    parseI64 [digitChar (number / 10), digitChar number] = some (number : Int) := by
  apply parseI64_digits
  · intro digit member
    rcases List.mem_cons.mp member with rfl | last
    · exact (digitChar_cases _).1
    · obtain rfl := List.mem_singleton.mp last
      exact (digitChar_cases _).1
  · simp only [List.foldl_cons, List.foldl_nil, (digitChar_cases _).2.1, Char.reduceToNat]
    omega
  · omega

theorem parseI64_four {number : Nat} (small : number < 10000) :
    parseI64 [digitChar (number / 1000), digitChar (number / 100), digitChar (number / 10),
      digitChar number] = some (number : Int) := by
  apply parseI64_digits
  · intro digit member
    simp only [List.mem_cons, List.not_mem_nil, or_false] at member
    rcases member with rfl | rfl | rfl | rfl <;> exact (digitChar_cases _).1
  · simp only [List.foldl_cons, List.foldl_nil, (digitChar_cases _).2.1, Char.reduceToNat]
    omega
  · exact small

/-! ## The formula for the days -/

/-- Whole cycles of 400 years, then the years of the last one. -/
theorem cycle_days (years : Nat) :
    (years : Int).tdiv 400 * 146097 + ((years - (years : Int).tdiv 400 * 400) * 365 +
      (years - (years : Int).tdiv 400 * 400).tdiv 4 -
      (years - (years : Int).tdiv 400 * 400).tdiv 100) = yearsDays years := by
  have counted := yearsDays_eq years
  have era : (years : Int).tdiv 400 = years / 400 :=
    Int.tdiv_eq_ediv_of_nonneg (Int.natCast_nonneg years)
  have within : 0 ≤ (years : Int) - (years : Int) / 400 * 400 := by omega
  rw [era, Int.tdiv_eq_ediv_of_nonneg within, Int.tdiv_eq_ediv_of_nonneg within]
  omega

theorem unixEpoch_number : unixEpoch.number = 719162 := by
  have counted := yearsDays_eq 1969
  simp only [Date.number, unixEpoch, Nat.reduceSub, monthsDays]
  omega

/-- The days from the formula are those the calendar counts. -/
theorem days_eq (date : Date) (y era yoe doy doe : Int)
    (yIs : y = if (date.month : Int) ≤ 2 then (date.year : Int) - 1 else date.year)
    (eraIs : era = (if 0 ≤ y then y else y - 399).tdiv 400) (yoeIs : yoe = y - era * 400)
    (doyIs : doy = (153 * (if 2 < (date.month : Int) then (date.month : Int) - 3
      else date.month + 9) + 2).tdiv 5 + date.day - 1)
    (doeIs : doe = yoe * 365 + yoe.tdiv 4 - yoe.tdiv 100 + doy) :
    era * 146097 + doe - 719468 = (date.number : Int) - unixEpoch.number := by
  have firstYear := date.yearPositive
  obtain ⟨low, high⟩ := date.monthInRange
  have firstDay := date.dayInRange.1
  have months := monthsDays_eq date.year low high
  rw [unixEpoch_number, Date.number]
  by_cases early : date.month ≤ 2
  · have years : y = ((date.year - 1 : Nat) : Int) := by
      rw [yIs, if_pos (by omega)]
      omega
    have cycles := cycle_days (date.year - 1)
    rw [if_pos (by omega), years] at eraIs
    rw [years] at yoeIs
    rw [← eraIs, ← yoeIs] at cycles
    rw [if_neg (by omega), Int.tdiv_eq_ediv_of_nonneg (by omega)] at doyIs
    rw [if_pos early] at months
    omega
  · have years : y = (date.year : Int) := by
      rw [yIs, if_neg (by omega)]
    have cycles := cycle_days date.year
    have lastYear : yearsDays date.year = yearsDays (date.year - 1) + daysInYear date.year := by
      obtain ⟨before, shape⟩ : ∃ before, date.year = before + 1 := ⟨date.year - 1, by omega⟩
      rw [shape]
      rfl
    rw [if_pos (by omega), years] at eraIs
    rw [years] at yoeIs
    rw [← eraIs, ← yoeIs] at cycles
    rw [if_pos (by omega), Int.tdiv_eq_ediv_of_nonneg (by omega)] at doyIs
    rw [if_neg early] at months
    unfold daysInYear at lastYear
    split at lastYear
    · next leap =>
        rw [if_pos leap] at months
        omega
    · next common =>
        rw [if_neg common] at months
        omega

/-! ## The two forms of an instant -/

theorem isoText_graphic (instant : Instant) :
    ∀ char ∈ isoText instant, isGraphic char = true := by
  have digits : ∀ number, isGraphic (digitChar number) = true :=
    fun number => (digitChar_cases number).2.2
  have marks : isGraphic '-' = true ∧ isGraphic 'T' = true ∧ isGraphic ':' = true ∧
      isGraphic 'Z' = true := by decide
  simp only [isoText, List.forall_mem_cons, digits, marks, List.not_mem_nil, true_and]
  exact fun _ impossible => absurd impossible id

theorem daysInMonth_le (year month : Nat) : daysInMonth year month ≤ 31 := by
  unfold daysInMonth
  split
  · split <;> decide
  · split <;> decide

theorem parseIso8601_isoText (instant : Instant) :
    parseIso8601 (isoText instant) = some instant.unixTime := by
  have graphic := isoText_graphic instant
  have size : (isoText instant).length = 20 := rfl
  have bytes : (encode (isoText instant)).length = 20 := by
    rw [encode_graphic graphic, List.length_map, size]
  obtain ⟨monthLow, monthHigh⟩ := instant.monthInRange
  obtain ⟨dayLow, dayHigh⟩ := instant.dayInRange
  have dayMax := Nat.le_trans dayHigh (daysInMonth_le instant.year instant.month)
  have yearLow := instant.yearPositive
  have yearHigh := instant.yearInRange
  have hourHigh := instant.hourInRange
  have minuteHigh := instant.minuteInRange
  have secondHigh := instant.secondInRange
  have year : (getRange (isoText instant) 0 4).bind parseI64 = some (instant.year : Int) := by
    rw [getRange_graphic graphic (by omega)]
    exact parseI64_four (by omega)
  have month : (getRange (isoText instant) 5 7).bind parseI64 = some (instant.month : Int) := by
    rw [getRange_graphic graphic (by omega)]
    exact parseI64_two (by omega)
  have day : (getRange (isoText instant) 8 10).bind parseI64 = some (instant.day : Int) := by
    rw [getRange_graphic graphic (by omega)]
    exact parseI64_two (by omega)
  have hour : (getRange (isoText instant) 11 13).bind parseI64 = some (instant.hour : Int) := by
    rw [getRange_graphic graphic (by omega)]
    exact parseI64_two (by omega)
  have minute : (getRange (isoText instant) 14 16).bind parseI64 =
      some (instant.minute : Int) := by
    rw [getRange_graphic graphic (by omega)]
    exact parseI64_two (by omega)
  have second : (getRange (isoText instant) 17 19).bind parseI64 =
      some (instant.second : Int) := by
    rw [getRange_graphic graphic (by omega)]
    exact parseI64_two (by omega)
  have days := days_eq instant.toDate _ _ _ _ _ rfl rfl rfl rfl rfl
  unfold parseIso8601
  rw [if_neg (by omega)]
  simp only [year, month, day, hour, minute, second, Option.bind_eq_bind, Option.bind_some]
  rw [if_neg (by omega)]
  simp only [days]
  rfl

/-- The bytes of a number below 2^64 give it back. -/
theorem foldr_toLeBytes {value : Nat} (fits : value < 2 ^ 64) :
    (toLeBytes value).foldr (fun byte high => high * 256 + byte.toNat) 0 = value := by
  have digits : ∀ index, (UInt8.ofNat (value / 256 ^ index)).toNat = value / 256 ^ index % 256 :=
    fun index => UInt8.toNat_ofNat'
  simp only [toLeBytes, List.range, List.range.loop, List.map_cons, List.map_nil, List.foldr_cons,
    List.foldr_nil, digits]
  omega

/-- The seconds of an instant fit an `i64`. -/
theorem sinceYearOne_lt (instant : Instant) : instant.sinceYearOne < 2 ^ 63 := by
  have counted := yearsDays_eq (instant.year - 1)
  have yearHigh := instant.yearInRange
  have hourHigh := instant.hourInRange
  have minuteHigh := instant.minuteInRange
  have secondHigh := instant.secondInRange
  have dayMax := Nat.le_trans instant.dayInRange.2 (daysInMonth_le instant.year instant.month)
  have months : monthsDays instant.year (instant.month - 1) ≤ daysInYear instant.year := by
    rw [← monthsDays_twelve]
    exact monthsDays_mono _ (by have := instant.monthInRange.2; omega)
  have yearMax : daysInYear instant.year ≤ 366 := by
    unfold daysInYear
    split <;> decide
  unfold Instant.sinceYearOne Date.number
  omega

theorem base64_graphic (bytes : List UInt8) :
    ∀ char ∈ Rfc4648.base64 bytes, isGraphic char = true ∧ char ≠ '-' := by
  have letters : Rfc4648.base64Alphabet.all
      (fun char => isGraphic char && !(char == '-')) = true := by decide
  intro char member
  rcases List.mem_append.mp member with letter | padding
  · obtain ⟨digit, -, rfl⟩ := List.mem_map.mp letter
    simpa using List.all_eq_true.mp letters _ (Rfc4648.base64Char_mem digit)
  · obtain rfl := List.eq_of_mem_replicate padding
    decide

section

variable (decodeBase64 : List UInt8 → Option (List UInt8))

theorem parseKdbxTime_isoText (instant : Instant) :
    parseKdbxTime decodeBase64 (isoText instant) = some instant.unixTime := by
  have graphic := isoText_graphic instant
  have bytes := encode_graphic graphic
  unfold parseKdbxTime
  rw [trim_of_graphic graphic]
  simp only [bytes]
  rw [if_neg (by simp [isoText]), if_pos]
  · exact parseIso8601_isoText instant
  · constructor
    · simp [isoText]
    · rfl

theorem parseKdbxTime_base64Time
    (standard : ∀ bytes, decodeBase64 (encode (Rfc4648.base64 bytes)) = some bytes)
    (instant : Instant) :
    parseKdbxTime decodeBase64 (base64Time instant) = some instant.unixTime := by
  have graphic : ∀ char ∈ base64Time instant, isGraphic char = true :=
    fun char member => (base64_graphic _ char member).1
  have nonempty : (base64Time instant).isEmpty = false := by
    rw [List.isEmpty_eq_false_iff]
    intro empty
    have none : toLeBytes instant.sinceYearOne = [] :=
      Rfc4648.base64_inj (empty.trans (by decide : [] = Rfc4648.base64 []))
    cases none
  have undashed : (encode (base64Time instant))[4]? ≠ some 0x2D := by
    rw [encode_graphic graphic, List.getElem?_map]
    intro dash
    obtain ⟨char, found, byte⟩ := Option.map_eq_some_iff.mp dash
    obtain ⟨range, notDash⟩ := base64_graphic _ char (List.mem_of_getElem? found)
    simp only [isGraphic, Bool.and_eq_true, decide_eq_true_eq] at range
    have low : char.toNat % 256 = 45 := by
      have value := congrArg UInt8.toNat byte
      rwa [UInt32.toNat_toUInt8] at value
    apply notDash
    have code : char.toNat = 45 := by omega
    rw [← Char.ofNat_toNat char, code]
  have read : decodeBase64 (encode (base64Time instant)) =
      some (toLeBytes instant.sinceYearOne) := standard _
  have small := sinceYearOne_lt instant
  have whole : (toLeBytes instant.sinceYearOne).take 8 = toLeBytes instant.sinceYearOne := rfl
  have seconds : fromLeBytes (toLeBytes instant.sinceYearOne) = instant.sinceYearOne := by
    unfold fromLeBytes
    rw [foldr_toLeBytes (by omega)]
    exact if_pos small
  have instantSeconds : (instant.sinceYearOne : Int) - 62135596800 = instant.unixTime := by
    unfold Instant.sinceYearOne Instant.unixTime
    rw [unixEpoch_number]
    omega
  unfold parseKdbxTime
  rw [trim_of_graphic graphic]
  simp only [nonempty, undashed, and_false, if_false, Bool.false_eq_true, read, whole, seconds]
  have size : ¬ (toLeBytes instant.sinceYearOne).length < 8 := by simp [toLeBytes]
  rw [if_neg size, if_pos (by omega), instantSeconds]

end

/-- Later instants have larger Unix times. -/
theorem unixTime_lt {first second : Instant} (before : first.Before second) :
    first.unixTime < second.unixTime := by
  have firstMinute := first.minuteInRange
  have firstSecond := first.secondInRange
  have firstHour := first.hourInRange
  unfold Instant.unixTime
  rcases before with date | ⟨sameDate, time⟩
  · have days := Date.number_lt date
    omega
  · rw [sameDate]
    rcases time with hour | ⟨sameHour, minute | ⟨sameMinute, second⟩⟩ <;> omega

/-- Both forms of an instant are read as its Unix time, and later instants as later times. -/
theorem kdbx_times_read (decodeBase64 : List UInt8 → Option (List UInt8))
    (standard : ∀ bytes, decodeBase64 (encode (Rfc4648.base64 bytes)) = some bytes) :
    (∀ instant, parseKdbxTime decodeBase64 (isoText instant) = some instant.unixTime ∧
        parseKdbxTime decodeBase64 (base64Time instant) =
          parseKdbxTime decodeBase64 (isoText instant)) ∧
      ∀ first second : Instant, first.Before second → ∃ earlier later,
        parseKdbxTime decodeBase64 (isoText first) = some earlier ∧
        parseKdbxTime decodeBase64 (isoText second) = some later ∧ earlier < later := by
  constructor
  · intro instant
    have iso := parseKdbxTime_isoText decodeBase64 instant
    exact ⟨iso, (parseKdbxTime_base64Time decodeBase64 standard instant).trans iso.symm⟩
  · intro first second before
    exact ⟨_, _, parseKdbxTime_isoText _ first, parseKdbxTime_isoText _ second, unixTime_lt before⟩

/-- The last second of a leap day. -/
def leapDayEnd : Instant :=
  ⟨⟨2024, 2, 29, by decide, by decide, by decide⟩, 23, 59, 59, by decide, by decide, by decide,
    by decide⟩

/-- A decoder of canonical base64. -/
def strictBase64 (bytes : List UInt8) : Option (List UInt8) :=
  (decode? bytes).bind Rfc4648.base64Decode

theorem strictBase64_base64 (bytes : List UInt8) :
    strictBase64 (encode (Rfc4648.base64 bytes)) = some bytes := by
  rw [strictBase64, decode?_encode, Option.bind_some, Rfc4648.base64Decode_base64]

/-- Both forms of 2024-02-29T23:59:59Z. -/
theorem leap_day_read :
    isoText leapDayEnd = "2024-02-29T23:59:59Z".toList ∧
      parseKdbxTime strictBase64 (isoText leapDayEnd) = some 1709251199 ∧
      parseKdbxTime strictBase64 (base64Time leapDayEnd) = some 1709251199 := by
  obtain ⟨iso, base64⟩ := (kdbx_times_read _ strictBase64_base64).1 leapDayEnd
  have days := yearsDays_eq 2023
  have months : monthsDays 2024 1 = 31 := rfl
  have number : leapDayEnd.number = 738944 := by
    simp only [Date.number, leapDayEnd, Nat.reduceSub, months]
    omega
  have seconds : leapDayEnd.unixTime = 1709251199 := by
    unfold Instant.unixTime
    rw [unixEpoch_number, number]
    rfl
  rw [seconds] at iso
  exact ⟨by decide, iso, base64.trans iso⟩

end Pangolin.Kdbx
