import Mathlib.Data.Nat.Notation

namespace Sweater
namespace Threading

/-!
# Integer widths and futex backends

The widths of the shared words are fixed by preprocessor conditionals.  They
are ordinary parameters here, so that one result covers all selections:
`hardware_concurrency_t` has 8 bits on ARM, AArch64, Android and Apple and 16
bits elsewhere, and `futex::value_type` is `hardware_concurrency_t` on Windows
and `std::uint32_t` on every other backend.
-/

/-- The two definitions of `hardware_concurrency_t`. -/
inductive HardwareConcurrency
  | uint8
  | uint16
  deriving DecidableEq, Repr

def HardwareConcurrency.bits : HardwareConcurrency -> Nat
  | .uint8 => 8
  | .uint16 => 16

/-- The operating system behind `psi::thrd_lite::futex`. -/
inductive FutexBackend
  | linux
  | windows
  | apple
  | emscripten
  deriving DecidableEq, Repr

namespace FutexBackend

/-- The width of `futex::value_type`. -/
def valueBits (backend : FutexBackend) (concurrency : HardwareConcurrency) : Nat :=
  match backend with
  | windows => concurrency.bits
  | linux | apple | emscripten => 32

/-- Only Linux compares `listen_bits` with `wake_bitset`; the other backends
ignore both arguments. -/
def filtersBitsets : FutexBackend -> Bool
  | linux => true
  | windows | apple | emscripten => false

end FutexBackend

theorem HardwareConcurrency.bits_le_valueBits (concurrency : HardwareConcurrency)
    (backend : FutexBackend) : concurrency.bits ≤ backend.valueBits concurrency := by
  cases backend <;> cases concurrency <;> decide

end Threading
end Sweater
