import TeaRs.Protocol.Content

/-!
# Reading and printing protocol timestamps

`ProtocolTimestamp::from_str` accepts a text with exactly three digits of a second and keeps the
instant it names in UTC; `Display` prints that instant, again with three digits and a final `Z`.
The calendar is `chrono`'s and stays a parameter.

The digits are checked on the text as it is written, the year is printed as it is in UTC. An
offset can carry the first or the last hours of the four-digit years out of them, and the sign
that `chrono` then prints is not read back.

## Main definitions

* `Chrono`, `Chrono.Documented`: the calls on `chrono` and what its documentation says of them.
* `validateMillisecondPrecision`, `Chrono.fromStr`: the parser of the source.

## Main results

* `Chrono.fromStr_toRfc3339_iff`: which accepted timestamps survive printing.
-/

namespace TeaRs

/-- Error returned when parsing a protocol timestamp. -/
inductive ProtocolTimestampParseError where
  /-- The timestamp is not valid RFC 3339 text; the reason is `chrono`'s. -/
  | invalidRfc3339 (error : String)
  /-- The timestamp does not have exactly three fractional second digits. -/
  | invalidPrecision
  deriving DecidableEq, Repr

/-- The text after the first `stop`, as `find` and a slice give it. -/
def afterFirst (stop : Char) (text : List Char) : Option (List Char) :=
  match text.dropWhile (· != stop) with
  | [] => none
  | _ :: rest => some rest

/-- The text before the last character that is a `stop`, as `rfind` and a slice give it. -/
def beforeLast (stop : Char → Bool) (text : List Char) : Option (List Char) :=
  match text.reverse.dropWhile (!stop ·) with
  | [] => none
  | _ :: front => some front.reverse

/-- `validate_millisecond_precision`. -/
def validateMillisecondPrecision (value : List Char) :
    Except ProtocolTimestampParseError Unit := do
  let some time := afterFirst 'T' value | throw .invalidPrecision
  let some clock := if value.getLast? = some 'Z' then some time.dropLast
    else beforeLast (fun c => c == '+' || c == '-') time | throw .invalidPrecision
  let some fraction := afterFirst '.' clock | throw .invalidPrecision
  if fraction.length ≠ 3 || !fraction.all Char.isDigit then
    throw .invalidPrecision

theorem afterFirst_append {stop : Char} {front : List Char} (free : stop ∉ front)
    (rest : List Char) : afterFirst stop (front ++ stop :: rest) = some rest := by
  have skipped : (front ++ stop :: rest).dropWhile (· != stop) = stop :: rest := by
    rw [List.dropWhile_append_of_pos, List.dropWhile_cons_of_neg (by simp)]
    intro c member
    exact bne_iff_ne.mpr fun same => free (same ▸ member)
  rw [afterFirst, skipped]

/-- The calls on `chrono`: `Fixed` are its date times with an offset, `Utc` those in UTC. -/
structure Chrono (Fixed Utc : Type) where
  /-- `DateTime::parse_from_rfc3339`. -/
  parseFromRfc3339 : List Char → Except String Fixed
  /-- `with_timezone(&Utc)`. -/
  withTimezone : Fixed → Utc
  /-- The calendar year in UTC. -/
  year : Utc → Int
  /-- `to_rfc3339_opts(SecondsFormat::Millis, true)`. -/
  toRfc3339 : Utc → List Char

namespace Chrono

variable {Fixed Utc : Type} (chrono : Chrono Fixed Utc)

/-- `ProtocolTimestamp::from_str`. -/
def fromStr (value : List Char) : Except ProtocolTimestampParseError Utc := do
  validateMillisecondPrecision value
  match chrono.parseFromRfc3339 value with
  | .error error => throw (.invalidRfc3339 error)
  | .ok fixed => return chrono.withTimezone fixed

/-- The instant is in one of the years that RFC 3339 writes with four digits. -/
def FourDigitYear (instant : Utc) : Prop :=
  0 ≤ chrono.year instant ∧ chrono.year instant ≤ 9999

/-- What `chrono` documents. A date time is printed with three digits of the second and a final
`Z`. In a four-digit year the print of a date time with whole milliseconds is read as the same
instant, and outside these years a sign is printed, which is not read. -/
structure Documented : Prop where
  printed : ∀ instant, ∃ date clock millis,
    chrono.toRfc3339 instant = date ++ 'T' :: (clock ++ '.' :: millis ++ ['Z']) ∧
      'T' ∉ date ∧ '.' ∉ clock ∧ millis.length = 3 ∧ millis.all Char.isDigit
  reads : ∀ {value fixed}, validateMillisecondPrecision value = .ok () →
    chrono.parseFromRfc3339 value = .ok fixed → chrono.FourDigitYear (chrono.withTimezone fixed) →
      ∃ again, chrono.parseFromRfc3339 (chrono.toRfc3339 (chrono.withTimezone fixed)) =
        .ok again ∧ chrono.withTimezone again = chrono.withTimezone fixed
  refuses : ∀ {instant}, ¬ chrono.FourDigitYear instant →
    ∃ error, chrono.parseFromRfc3339 (chrono.toRfc3339 instant) = .error error

variable {chrono} {value : List Char}

theorem fromStr_eq_ok_iff {timestamp : Utc} : chrono.fromStr value = .ok timestamp ↔
    validateMillisecondPrecision value = .ok () ∧
      ∃ fixed, chrono.parseFromRfc3339 value = .ok fixed ∧
        chrono.withTimezone fixed = timestamp := by
  unfold fromStr
  cases validateMillisecondPrecision value with
  | error error => exact ⟨nofun, fun accepted => nomatch accepted.1⟩
  | ok =>
    cases chrono.parseFromRfc3339 value with
    | error error => exact ⟨nofun, fun ⟨_, _, read, _⟩ => nomatch read⟩
    | ok fixed =>
      refine ⟨fun accepted => ⟨rfl, fixed, rfl, Except.ok.inj accepted⟩, ?_⟩
      rintro ⟨-, read, same, rfl⟩
      cases same
      rfl

/-- Every print passes the check of the digits, whatever its year. -/
theorem Documented.validate_toRfc3339 (documented : chrono.Documented) (instant : Utc) :
    validateMillisecondPrecision (chrono.toRfc3339 instant) = .ok () := by
  obtain ⟨date, clock, millis, shape, noT, noDot, three, digits⟩ := documented.printed instant
  have last : (chrono.toRfc3339 instant).getLast? = some 'Z' := by
    rw [shape, ← List.cons_append, ← List.append_assoc, List.getLast?_concat]
  have clockText : afterFirst '.' (clock ++ '.' :: millis) = some millis :=
    afterFirst_append noDot millis
  rw [validateMillisecondPrecision, last, shape, afterFirst_append noT]
  simp only [if_true, List.dropLast_concat, clockText, three, digits]
  rfl

/-- An accepted timestamp is read back from its print exactly when the instant that the text
names lies in a four-digit year of UTC, whatever the year in the text's own offset. -/
theorem fromStr_toRfc3339_iff (documented : chrono.Documented) {fixed : Fixed}
    (precise : validateMillisecondPrecision value = .ok ())
    (read : chrono.parseFromRfc3339 value = .ok fixed) :
    (∃ timestamp, chrono.fromStr value = .ok timestamp ∧
        chrono.fromStr (chrono.toRfc3339 timestamp) = .ok timestamp) ↔
      chrono.FourDigitYear (chrono.withTimezone fixed) := by
  constructor
  · rintro ⟨timestamp, accepted, again⟩
    obtain ⟨-, other, same, rfl⟩ := fromStr_eq_ok_iff.mp accepted
    cases read.symm.trans same
    by_contra outside
    obtain ⟨error, refused⟩ := documented.refuses outside
    obtain ⟨-, later, reread, -⟩ := fromStr_eq_ok_iff.mp again
    cases refused.symm.trans reread
  · intro inside
    refine ⟨_, fromStr_eq_ok_iff.mpr ⟨precise, fixed, read, rfl⟩, ?_⟩
    exact fromStr_eq_ok_iff.mpr
      ⟨documented.validate_toRfc3339 _, documented.reads precise read inside⟩

/-- Two instants of the calendar: the start of 2026 and the last millisecond of the year 9999 one
hour west of Greenwich, which is in the year 10000 of UTC. -/
def twoInstants : Chrono Bool Bool where
  parseFromRfc3339 value :=
    if value = "2026-01-01T00:00:00.000Z".toList then .ok false
    else if value = "9999-12-31T23:59:59.999-01:00".toList then .ok true
    else .error "input contains invalid characters"
  withTimezone instant := instant
  year instant := if instant then 10000 else 2026
  toRfc3339 instant :=
    if instant then "+10000-01-01T00:59:59.999Z".toList else "2026-01-01T00:00:00.000Z".toList

theorem twoInstants_documented : twoInstants.Documented where
  printed
    | false => ⟨"2026-01-01".toList, "00:00:00".toList, "000".toList, by decide +kernel⟩
    | true => ⟨"+10000-01-01".toList, "00:59:59".toList, "999".toList, by decide +kernel⟩
  reads {_ fixed} _ _ inside := by
    cases fixed with
    | false => exact ⟨false, by decide +kernel⟩
    | true => exact absurd inside.2 (by decide)
  refuses {instant} outside := by
    cases instant with
    | false => exact absurd (by constructor <;> decide) outside
    | true => exact ⟨_, rfl⟩

/-- The last hour of the year 9999 west of Greenwich is accepted and printed as a text that is
not. -/
theorem fromStr_toRfc3339_lost :
    twoInstants.fromStr "9999-12-31T23:59:59.999-01:00".toList = .ok true ∧
      twoInstants.fromStr (twoInstants.toRfc3339 true) =
        .error (.invalidRfc3339 "input contains invalid characters") := by
  decide +kernel

theorem fromStr_toRfc3339_iff_twoInstants :
    ∃ timestamp, twoInstants.fromStr "2026-01-01T00:00:00.000Z".toList = .ok timestamp ∧
      twoInstants.fromStr (twoInstants.toRfc3339 timestamp) = .ok timestamp :=
  (fromStr_toRfc3339_iff twoInstants_documented (by decide +kernel)
    (show twoInstants.parseFromRfc3339 _ = .ok false by decide +kernel)).mpr ⟨by decide, by decide⟩

end Chrono

end TeaRs
