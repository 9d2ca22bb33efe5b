import Mathlib.Data.List.Infix
import SurfCam.Camera.Calls
import SurfCam.Upload.Policy

/-!
# The monitor

One cycle of `monitorSystemResources`: the texts of `/proc/meminfo` and of the thermal zone, and the
emergency stop that they call for.  The integers of `sscanf` and `>>` are unbounded here.
-/

namespace SurfCam

open Interaction

namespace Monitor

/-- `isspace` -/
def isSpace (c : Char) : Bool := c ∈ [' ', '\t', '\n', '\x0b', '\x0c', '\r']

def digitsValue (digits : Str) : Int :=
  digits.foldl (fun n c => 10 * n + (c.toNat - '0'.toNat : Nat)) 0

/-- An optional sign and at least one digit, after white space: `%d`, and `>>` into an `int`. -/
def scanInt (s : Str) : Option Int :=
  let s := s.dropWhile isSpace
  let negative := s.head? = some '-'
  let digits := (if negative ∨ s.head? = some '+' then s.tail else s).takeWhile Char.isDigit
  if digits = [] then none
  else if negative then some (-digitsValue digits) else some (digitsValue digits)

/-- `sscanf(line, "label %d", &n)` -/
def sscanf (line label : Str) : Option Int :=
  if label <+: line then scanInt (line.drop label.length) else none

/-- The variables of the loop over `/proc/meminfo`. -/
structure MemInfo where
  totalMem : Int := 0
  freeMem : Int := 0
  buffers : Int := 0
  cached : Int := 0

def MemInfo.readLine (m : MemInfo) (line : Str) : MemInfo :=
  if "MemTotal:".toList <:+: line then
    { m with totalMem := (sscanf line "MemTotal:".toList).getD m.totalMem }
  else if "MemFree:".toList <:+: line then
    { m with freeMem := (sscanf line "MemFree:".toList).getD m.freeMem }
  else if "Buffers:".toList <:+: line then
    { m with buffers := (sscanf line "Buffers:".toList).getD m.buffers }
  else if "Cached:".toList <:+: line ∧ ¬ "SwapCached:".toList <:+: line then
    { m with cached := (sscanf line "Cached:".toList).getD m.cached }
  else m

def readMemInfo (text : Str) : MemInfo :=
  (HlsUploadPolicy.getLines text).foldl MemInfo.readLine {}

/-- `availableMemMb` -/
def availableMemMb (meminfo : Option Str) : Int :=
  match meminfo.map readMemInfo with
  | some m => if m.totalMem > 0 then (m.freeMem + m.buffers + m.cached).tdiv 1024 else 0
  | none => 0

/-- `availableMemMb < 40`, where the cycle comes to that test. -/
def lowMemory (meminfo thermal : Option Str) : Bool :=
  meminfo.isSome ∧ (thermal.bind scanInt).isSome ∧ availableMemMb meminfo < 40

/-- `cpuTemp > 75.0f`, where the cycle comes to that test. -/
def highTemperature (meminfo thermal : Option Str) : Bool :=
  meminfo.isSome ∧ ∃ tempMilliC ∈ thermal.bind scanInt, tempMilliC > 75000

def cycle : Prog Sys Unit := do
  let meminfo ← sys (.readFile "/proc/meminfo".toList)
  let thermal ← sys (.readFile "/sys/class/thermal/thermal_zone0/temp".toList)
  Prog.when (lowMemory meminfo thermal) (sys (.store .emergencyStopHls true))
  Prog.when (highTemperature meminfo thermal) (sys (.store .emergencyStopHls true))

end Monitor

end SurfCam
