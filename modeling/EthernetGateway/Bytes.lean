import Mathlib.Data.Nat.Basic

/-!
# Facts about all bytes
-/

namespace EthernetGateway

/-- A property of bytes, checked on every byte. -/
theorem byte_forall {P : UInt8 → Prop} (checked : ∀ n < 256, P (UInt8.ofNat n)) (byte : UInt8) :
    P byte := by
  have whole := checked byte.toNat byte.toNat_lt
  rwa [UInt8.ofNat_toNat] at whole

end EthernetGateway
