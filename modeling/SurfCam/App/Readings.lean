import SurfCam.App.Monitor
import SurfCam.Logic.Rounding

/-!
# What a cycle of the monitor reads

The variables of `monitorSystemResources` with the ranges that C++ gives them.  A number that
`sscanf` converts and that is no `int`, and a sum that is none, leave the program undefined; `>>`
fails for such a number.  `cpuTemp` is a `float`.
-/

namespace SurfCam

namespace Monitor

/-- The values of an `int`. -/
def IsInt (n : Int) : Prop := -2147483648 ≤ n ∧ n ≤ 2147483647

instance (n : Int) : Decidable (IsInt n) := inferInstanceAs (Decidable (_ ∧ _))

/-- The number that the `sscanf` of the line's branch converts. -/
def converted (line : Str) : Option Int :=
  if "MemTotal:".toList <:+: line then sscanf line "MemTotal:".toList
  else if "MemFree:".toList <:+: line then sscanf line "MemFree:".toList
  else if "Buffers:".toList <:+: line then sscanf line "Buffers:".toList
  else if "Cached:".toList <:+: line ∧ ¬ "SwapCached:".toList <:+: line then
    sscanf line "Cached:".toList
  else none

/-- One line, where its conversion is defined. -/
def MemInfo.readLine? (m : MemInfo) (line : Str) : Option MemInfo :=
  if ∀ n ∈ converted line, IsInt n then some (m.readLine line) else none

/-- The loop over the lines. -/
def MemInfo.readLines? (m : MemInfo) : List Str → Option MemInfo
  | [] => some m
  | line :: rest => (m.readLine? line).bind fun m => m.readLines? rest

/-- `a + b` -/
def add? (a b : Int) : Option Int := if IsInt (a + b) then some (a + b) else none

/-- `tempFile >> tempMilliC`: whether it succeeds, and the value that it leaves. -/
def extract (s : Str) : Bool × Int :=
  match scanInt s with
  | none => (false, 0)
  | some n =>
    if n < -2147483648 then (false, -2147483648)
    else if 2147483647 < n then (false, 2147483647)
    else (true, n)

/-- The variables of a cycle when it comes to its `try`. -/
structure Readings where
  memOk : Bool
  availableMemMb : Int
  totalMemMb : Int
  tempOk : Bool
  tempMilliC : Int
  deriving DecidableEq

/-- `availableMemMb` and `totalMemMb` -/
def MemInfo.megabytes? (m : MemInfo) (memOk : Bool) : Option (Int × Int) :=
  if memOk ∧ m.totalMem > 0 then do
    let sum ← add? m.freeMem m.buffers
    let sum ← add? sum m.cached
    return (sum.tdiv 1024, m.totalMem.tdiv 1024)
  else some (0, 0)

/-- `tempOk` and `tempMilliC` -/
def readThermal : Option Str → Bool × Int
  | some text => extract text
  | none => (false, 0)

/-- From the top of the loop to the `try`. -/
def readings (meminfo thermal : Option Str) : Option Readings := do
  let m ← match meminfo with
    | some text => MemInfo.readLines? {} (HlsUploadPolicy.getLines text)
    | none => some {}
  let (availableMemMb, totalMemMb) ← m.megabytes? meminfo.isSome
  let (tempOk, tempMilliC) := readThermal thermal
  return ⟨meminfo.isSome, availableMemMb, totalMemMb, tempOk, tempMilliC⟩

/-! ## The try -/

/-- The warnings that are printed every two minutes at most: of an unreadable source, of low memory
and of high temperature.  Each has its own `last...Warn`. -/
inductive Warning where
  | proc
  | lowMem
  | highTemp
  deriving DecidableEq

/-- `clock::time_point::min()`: a time is a signed 64-bit number of nanoseconds. -/
def timePointMin : Int := -9223372036854775808

/-- `constexpr auto kWarnInterval = std::chrono::minutes(2)` -/
def kWarnInterval : Int := 2 * 60 * 1000000000

/-- The values of a `std::int64_t`. -/
def IsInt64 (n : Int) : Prop := -9223372036854775808 ≤ n ∧ n ≤ 9223372036854775807

instance (n : Int) : Decidable (IsInt64 n) := inferInstanceAs (Decidable (_ ∧ _))

/-- A difference as a 64-bit word has it. -/
def elapsed (now last : Int) : Int :=
  (now - last + 9223372036854775808) % 18446744073709551616 - 9223372036854775808

/-- One evaluation of `now - last...Warn > kWarnInterval`. -/
structure Check where
  warning : Warning
  now : Int
  last : Int
  deriving DecidableEq

/-- The warning is printed. -/
def Check.prints (c : Check) : Bool := elapsed c.now c.last > kWarnInterval

/-- What the `try` of a cycle has done so far. -/
structure Effects where
  /-- `emergencyStopHls.store(true)` -/
  stopped : Bool
  /-- `lastProcWarn`, `lastLowMemWarn` and `lastHighTempWarn` -/
  last : Warning → Int
  /-- the interval checks, the first one first -/
  checks : List Check

def Effects.stop (e : Effects) : Effects := { e with stopped := true }

/-- `if (now - last...Warn > kWarnInterval) { ... last...Warn = now; }` -/
def Effects.warn (e : Effects) (now : Int) (w : Warning) : Effects :=
  { e with
    last := if (Check.mk w now (e.last w)).prints then Function.update e.last w now else e.last
    checks := e.checks ++ [⟨w, now, e.last w⟩] }

section

variable (round : ℚ → ℚ)

/-- `tempMilliC / 1000.0f` -/
def cpuTemp (tempMilliC : Int) : ℚ := round (round tempMilliC / 1000)

/-- The `try` of a cycle; its output is the `prints` of the checks. -/
def tryBody (now : Int) (last : Warning → Int) (r : Readings) : Effects :=
  let e : Effects := ⟨false, last, []⟩
  if r.memOk && r.tempOk then
    let e := if r.availableMemMb < 40 then e.stop.warn now .lowMem else e
    if cpuTemp round r.tempMilliC > 75 then e.stop.warn now .highTemp else e
  else e.warn now .proc

end

end Monitor

end SurfCam
