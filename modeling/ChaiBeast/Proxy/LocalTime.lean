import ChaiBeast.Strings

namespace ChaiBeast.Proxy

/-! `getLocalTime` of abstractforwarder.hpp, the name of a temporary file. -/

structure Tm where
  year : Int
  month : Nat
  day : Nat
deriving Repr, DecidableEq

/-- The Gregorian date of a day counted from 1970-01-01.  Years start in March
here, so that a leap day is the last day of its year. -/
def civil (days : Int) : Tm :=
  let shifted := days + 719468
  let era := shifted.fdiv 146097
  let dayOfEra := (shifted.fmod 146097).toNat
  let yearOfEra := (dayOfEra - dayOfEra / 1460 + dayOfEra / 36524 - dayOfEra / 146096) / 365
  let dayOfYear := dayOfEra - (365 * yearOfEra + yearOfEra / 4 - yearOfEra / 100)
  let shiftedMonth := (5 * dayOfYear + 2) / 153
  let month := if shiftedMonth < 10 then shiftedMonth + 3 else shiftedMonth - 9
  { year := yearOfEra + era * 400 + if month ≤ 2 then 1 else 0
    month
    day := dayOfYear - (153 * shiftedMonth + 2) / 5 + 1 }

/-- `system_clock::to_time_t` of a reading in nanoseconds: whole seconds. -/
def toTimeT (now : Int) : Int :=
  now.tdiv 1000000000

/-- `std::localtime`, where `zone` gives the offset of local time in seconds. -/
def localtime (zone : Int → Int) (time : Int) : Tm :=
  civil ((time + zone time).fdiv 86400)

def decimal (n : Nat) : CppString :=
  Nat.toDigits 10 n

def signed (n : Int) : CppString :=
  if n < 0 then '-' :: decimal n.natAbs else decimal n.natAbs

def twoDigits (n : Nat) : CppString :=
  if n < 10 then '0' :: decimal n else decimal n

/-- `strftime` with `%Y-%m-%d-%s`.  `%s` is the `time_t` that the local time
stands for. -/
def strftime (tm : Tm) (time : Int) : CppString :=
  signed tm.year ++ '-' :: twoDigits tm.month ++ '-' :: twoDigits tm.day ++ '-' :: signed time

/-- The name for one reading.  `std::localtime` fills a `tm` that all threads share,
so the name that a request gets may be the one for another request's reading. -/
def getLocalTime (zone : Int → Int) (now : Int) : CppString :=
  strftime (localtime zone (toTimeT now)) (toTimeT now)

theorem dash_not_mem_decimal (n : Nat) : '-' ∉ decimal n := fun member =>
  absurd (Nat.isDigit_of_mem_toDigits (by decide) (by decide) member) (by decide)

theorem decimal_inj {m n : Nat} (same : decimal m = decimal n) : m = n := by
  have values := congrArg (Nat.ofDigitChars 10 · 0) same
  simpa only [decimal, Nat.ofDigitChars_ten_toDigits] using values

def sign (n : Int) : CppString :=
  if n < 0 then ['-'] else []

theorem append_signed (front : CppString) (digit : Char) (n : Int) :
    front ++ digit :: '-' :: signed n = (front ++ digit :: sign n) ++ '-' :: decimal n.natAbs := by
  unfold signed sign
  split <;> simp

theorem append_signed_inj {front front' : CppString} {digit digit' : Char} {m n : Int}
    (proper : digit ≠ '-') (proper' : digit' ≠ '-')
    (same : front ++ digit :: '-' :: signed m = front' ++ digit' :: '-' :: signed n) : m = n := by
  rw [append_signed, append_signed] at same
  obtain ⟨fronts, decimals⟩ :=
    last_cut_inj (dash_not_mem_decimal _) (dash_not_mem_decimal _) same
  have sizes : m.natAbs = n.natAbs := decimal_inj decimals
  have lasts := congrArg List.getLast? fronts
  by_cases negative : m < 0 <;> by_cases negative' : n < 0
  · omega
  · simp [sign, negative, negative', eq_comm, proper'] at lasts
  · simp [sign, negative, negative', proper] at lasts
  · omega

theorem twoDigits_last (n : Nat) : ∃ front digit, digit ≠ '-' ∧ twoDigits n = front ++ [digit] := by
  have nonempty : twoDigits n ≠ [] := by
    unfold twoDigits decimal
    split <;> simp [Nat.toDigits_ne_nil]
  have clear : '-' ∉ twoDigits n := by
    unfold twoDigits
    split <;> simp [dash_not_mem_decimal]
  refine ⟨_, _, fun dash => clear ?_, (List.dropLast_concat_getLast nonempty).symm⟩
  exact dash ▸ List.getLast_mem nonempty

theorem strftime_shape (tm : Tm) (time : Int) :
    ∃ front digit, digit ≠ '-' ∧ strftime tm time = front ++ digit :: '-' :: signed time := by
  obtain ⟨front, digit, proper, day⟩ := twoDigits_last tm.day
  exact ⟨signed tm.year ++ '-' :: twoDigits tm.month ++ '-' :: front, digit, proper, by
    simp [strftime, day]⟩

/-- Two readings of the clock name the same file exactly within one second. -/
theorem getLocalTime_eq_iff (zone : Int → Int) (now now' : Int) :
    getLocalTime zone now = getLocalTime zone now' ↔ toTimeT now = toTimeT now' := by
  constructor
  · intro same
    obtain ⟨front, digit, proper, shape⟩ :=
      strftime_shape (localtime zone (toTimeT now)) (toTimeT now)
    obtain ⟨front', digit', proper', shape'⟩ :=
      strftime_shape (localtime zone (toTimeT now')) (toTimeT now')
    rw [getLocalTime, getLocalTime, shape, shape'] at same
    exact append_signed_inj proper proper' same
  · intro second
    rw [getLocalTime, getLocalTime, second]

example : getLocalTime (fun _ => 7200) 1700000000000000000 = "2023-11-15-1700000000".toList := by
  decide

end ChaiBeast.Proxy
