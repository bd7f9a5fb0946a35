import PanelGemm.Level

/-!
# The host

The features of a processor decide which levels it can execute: every processor executes the
baseline, and none of those that the program is built for executes `neon`, which belongs to another
architecture. The level that needs only half of a wide register is never the best one; it is used on
request.
-/

set_option autoImplicit false
set_option relaxedAutoImplicit false

namespace PanelGemm

/-- The vector features of a processor. -/
structure Host where
  avx2 : Bool
  fma : Bool
  avx512f : Bool
  avx512vl : Bool
  deriving DecidableEq, Inhabited

namespace Host

/-- Whether a host can execute the kernels of a level. -/
def supports (host : Host) : Level → Bool
  | .baseline => true
  | .neon => false
  | .avx2 => host.avx2 && host.fma
  | .avx512Ymm => host.avx512f && host.avx512vl && host.fma
  | .avx512 => host.avx512f && host.fma

/-- The best level of a host. -/
def level (host : Host) : Level :=
  if host.supports .avx512 then .avx512
  else if host.supports .avx2 then .avx2
  else .baseline

/-- The level to dispatch for: a requested one if the host supports it, else the best one. -/
def resolve (host : Host) (requested : Option Level) : Level :=
  match requested with
  | none => host.level
  | some wanted => if host.supports wanted then wanted else host.level

end Host

end PanelGemm
