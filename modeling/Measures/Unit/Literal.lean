import Measures.Unit.Base
import Measures.Binary64.Arithmetic
import Measures.Binary64.Reading

/-!
# Literal units

The units in which lengths, frequencies, times and angles are given, each with the base unit that
stores it and the count of base units in one of it.
-/

namespace Measures

inductive LengthUnit where
  | pt
  | pc
  | inch
  | cm
  | mm
  deriving DecidableEq, Repr

inductive FrequencyUnit where
  | hz
  | khz
  deriving DecidableEq, Repr

inductive TimeUnit where
  | ms
  | s
  deriving DecidableEq, Repr

inductive AngleUnit where
  | deg
  | grad
  | rad
  deriving DecidableEq, Repr

/-! ## Names -/

namespace LengthUnit

def all : List LengthUnit := [pt, pc, inch, cm, mm]

def label : LengthUnit → String
  | pt => "PT"
  | pc => "PC"
  | inch => "IN"
  | cm => "CM"
  | mm => "MM"

def text : LengthUnit → String
  | pt => "pt"
  | pc => "pc"
  | inch => "in"
  | cm => "cm"
  | mm => "mm"

end LengthUnit

namespace FrequencyUnit

def all : List FrequencyUnit := [hz, khz]

def label : FrequencyUnit → String
  | hz => "HZ"
  | khz => "KHZ"

def text : FrequencyUnit → String
  | hz => "Hz"
  | khz => "kHz"

end FrequencyUnit

namespace TimeUnit

def all : List TimeUnit := [ms, s]

def label : TimeUnit → String
  | ms => "MS"
  | s => "S"

def text : TimeUnit → String
  | ms => "ms"
  | s => "s"

end TimeUnit

namespace AngleUnit

def all : List AngleUnit := [deg, grad, rad]

def label : AngleUnit → String
  | deg => "DEG"
  | grad => "GRAD"
  | rad => "RAD"

def text : AngleUnit → String
  | deg => "deg"
  | grad => "grad"
  | rad => "rad"

end AngleUnit

/-! ## Factors -/

def millipointsPerPoint : Binary64 := .ofInt 1000

def pointsPerInch : Binary64 := .ofInt 72

def cmPerInch : Binary64 := .ofDecimal false [2, 5, 4] (-2)

def pi : Binary64 := .ofBits 0x400921fb54442d18

/-- Millipoints in one unit. -/
def LengthUnit.factor : LengthUnit → Binary64
  | pt => millipointsPerPoint
  | pc => .ofInt 12 * millipointsPerPoint
  | inch => pointsPerInch * millipointsPerPoint
  | cm => pointsPerInch * millipointsPerPoint / cmPerInch
  | mm => pointsPerInch * millipointsPerPoint / cmPerInch / .ofInt 10

/-- Hertz in one unit. -/
def FrequencyUnit.factor : FrequencyUnit → Binary64
  | hz => .ofInt 1
  | khz => .ofInt 1000

/-- Milliseconds in one unit. -/
def TimeUnit.factor : TimeUnit → Binary64
  | ms => .ofInt 1
  | s => .ofInt 1000

/-- Degrees in one unit. -/
def AngleUnit.factor : AngleUnit → Binary64
  | deg => .ofInt 1
  | grad => .ofDecimal false [9] (-1)
  | rad => .ofInt 180 / pi

/-! ## Physical units -/

inductive PhysicalUnit where
  | length (u : LengthUnit)
  | frequency (u : FrequencyUnit)
  | time (u : TimeUnit)
  | angle (u : AngleUnit)
  deriving DecidableEq, Repr

namespace PhysicalUnit

def text : PhysicalUnit → String
  | length u => u.text
  | frequency u => u.text
  | time u => u.text
  | angle u => u.text

/-- The base unit that stores a quantity given in a unit. -/
def base : PhysicalUnit → BaseUnit
  | length _ => .millipoints
  | frequency _ => .hertz
  | time _ => .millisecs
  | angle _ => .degrees

/-- Base units in one unit. -/
def factor : PhysicalUnit → Binary64
  | length u => u.factor
  | frequency u => u.factor
  | time u => u.factor
  | angle u => u.factor

theorem base_isPhysical (u : PhysicalUnit) : u.base.isPhysical := by cases u <;> rfl

def toCanonical (x : Binary64) (u : PhysicalUnit) : Binary64 := x * u.factor

def fromCanonical (x : Binary64) (u : PhysicalUnit) : Binary64 := x / u.factor

end PhysicalUnit

/-! ## Relative lengths -/

def percentSign : String := "%"

def emSign : String := "em"

/-- A percentage is stored as a factor: 50 becomes 0.5. -/
def percentToFactor (percent : Binary64) : Binary64 := percent / .ofInt 100

end Measures
