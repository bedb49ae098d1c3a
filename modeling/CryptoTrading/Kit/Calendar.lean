import Mathlib.Algebra.Order.Ring.Int
import Mathlib.Order.Monotone.Basic
import Mathlib.Tactic.Linarith

/-! The proleptic Gregorian calendar: the date of a day that is counted from the first of January 1970.  Years
are taken from March on, so that the day that a leap year adds is the last one: eras of 400 years, centuries
of an era, cycles of four years, and the years of a cycle.  The month of a later day is no earlier. -/

namespace CryptoTrading.Kit.Calendar

structure CivilDate where
  year : ℤ
  month : ℤ
  day : ℤ
  deriving DecidableEq, Repr

/-- The days from the first of March of the year 0 on. -/
def daysFromMarch (days : ℤ) : ℤ := days + 719468

def era (days : ℤ) : ℤ := daysFromMarch days / 146097

def dayOfEra (days : ℤ) : ℤ := daysFromMarch days % 146097

/-- The century of an era; the last one has the day that the era adds. -/
def century (days : ℤ) : ℤ := min 3 (dayOfEra days / 36524)

def dayOfCentury (days : ℤ) : ℤ := dayOfEra days - 36524 * century days

/-- The cycle of four years of a century. -/
def cycle (days : ℤ) : ℤ := dayOfCentury days / 1461

def dayOfCycle (days : ℤ) : ℤ := dayOfCentury days % 1461

/-- The year of a cycle; the last one has the day that the cycle adds. -/
def yearOfCycle (days : ℤ) : ℤ := min 3 (dayOfCycle days / 365)

/-- The day of the year, from March on. -/
def dayOfYear (days : ℤ) : ℤ := dayOfCycle days - 365 * yearOfCycle days

/-- The year, from March on. -/
def marchYear (days : ℤ) : ℤ :=
  400 * era days + 100 * century days + 4 * cycle days + yearOfCycle days

/-- The place of the month, from March on. -/
def monthPlace (days : ℤ) : ℤ := (5 * dayOfYear days + 2) / 153

def civilDate (days : ℤ) : CivilDate :=
  let place := monthPlace days
  { year := marchYear days + if place < 10 then 0 else 1
    month := if place < 10 then place + 3 else place - 9
    day := dayOfYear days - (153 * place + 2) / 5 + 1 }

/-- The months from January of the year 0 on. -/
def CivilDate.monthIndex (date : CivilDate) : ℤ := 12 * date.year + (date.month - 1)

section Bounds

variable (days : ℤ)

theorem dayOfEra_mem : 0 ≤ dayOfEra days ∧ dayOfEra days < 146097 := by
  unfold dayOfEra
  omega

theorem century_mem : 0 ≤ century days ∧ century days ≤ 3 := by
  have h := dayOfEra_mem days
  unfold century
  omega

theorem dayOfCentury_mem : 0 ≤ dayOfCentury days ∧ dayOfCentury days < 36525 := by
  have h := dayOfEra_mem days
  unfold dayOfCentury century
  omega

theorem cycle_mem : 0 ≤ cycle days ∧ cycle days ≤ 24 := by
  have h := dayOfCentury_mem days
  unfold cycle
  omega

theorem dayOfCycle_mem : 0 ≤ dayOfCycle days ∧ dayOfCycle days < 1461 := by
  unfold dayOfCycle
  omega

theorem yearOfCycle_mem : 0 ≤ yearOfCycle days ∧ yearOfCycle days ≤ 3 := by
  have h := dayOfCycle_mem days
  unfold yearOfCycle
  omega

theorem dayOfYear_mem : 0 ≤ dayOfYear days ∧ dayOfYear days ≤ 365 := by
  have h := dayOfCycle_mem days
  unfold dayOfYear yearOfCycle
  omega

theorem monthPlace_mem : 0 ≤ monthPlace days ∧ monthPlace days ≤ 11 := by
  have h := dayOfYear_mem days
  unfold monthPlace
  omega

theorem civilDate_month_mem : 1 ≤ (civilDate days).month ∧ (civilDate days).month ≤ 12 := by
  have h := monthPlace_mem days
  simp only [civilDate]
  split <;> omega

theorem monthIndex_civilDate :
    (civilDate days).monthIndex = 12 * marchYear days + monthPlace days + 2 := by
  simp only [CivilDate.monthIndex, civilDate]
  split <;> omega

end Bounds

/-! ### The order of the months -/

section Order

variable {a b : ℤ}

theorem era_mono (h : a ≤ b) : era a ≤ era b ∧ (era a = era b → dayOfEra a ≤ dayOfEra b) := by
  unfold era dayOfEra daysFromMarch
  omega

theorem century_mono (h : dayOfEra a ≤ dayOfEra b) :
    century a ≤ century b ∧ (century a = century b → dayOfCentury a ≤ dayOfCentury b) := by
  unfold dayOfCentury century
  omega

theorem cycle_mono (h : dayOfCentury a ≤ dayOfCentury b) :
    cycle a ≤ cycle b ∧ (cycle a = cycle b → dayOfCycle a ≤ dayOfCycle b) := by
  unfold dayOfCycle cycle
  omega

theorem yearOfCycle_mono (h : dayOfCycle a ≤ dayOfCycle b) :
    yearOfCycle a ≤ yearOfCycle b ∧ (yearOfCycle a = yearOfCycle b → monthPlace a ≤ monthPlace b) := by
  unfold monthPlace dayOfYear yearOfCycle
  omega

/-- A later day is in no earlier month. -/
theorem monthIndex_mono (h : a ≤ b) : (civilDate a).monthIndex ≤ (civilDate b).monthIndex := by
  rw [monthIndex_civilDate, monthIndex_civilDate, marchYear, marchYear]
  have hcentury := century_mem a
  have hcycle := cycle_mem a
  have hyear := yearOfCycle_mem a
  have hmonth := monthPlace_mem a
  have hcentury' := century_mem b
  have hcycle' := cycle_mem b
  have hyear' := yearOfCycle_mem b
  have hmonth' := monthPlace_mem b
  obtain ⟨hera, hday⟩ := era_mono h
  rcases hera.lt_or_eq with hera | hera
  · omega
  obtain ⟨hle, hday⟩ := century_mono (hday hera)
  rcases hle.lt_or_eq with hlt | heq
  · omega
  obtain ⟨hle', hday⟩ := cycle_mono (hday heq)
  rcases hle'.lt_or_eq with hlt' | heq'
  · omega
  obtain ⟨hle'', hplace⟩ := yearOfCycle_mono (hday heq')
  rcases hle''.lt_or_eq with hlt'' | heq''
  · omega
  · have hlast := hplace heq''
    omega

end Order

example : civilDate 20675 = ⟨2026, 8, 10⟩ := by decide

end CryptoTrading.Kit.Calendar
